import Codespace.Ui.Convergence

/-!
# The session table when the namespace changes

`useSessions` keeps the rows when another namespace is chosen: the load and the stream of the
old one are given up, those of the new one begun, and until the load arrives the messages of the
new stream are applied to the rows of the old namespace. A `refresh()` is not given up, and one
that an action began before the change goes on for the old namespace.

So the rows may be anything for a while, but what the stream says of the names it mentions is
right for some rows (`Streams`): that is enough for the next response to set everything right.
-/

namespace Codespace.Ui
set_option autoImplicit false
open Interact Versioned Server Keyed

/-! ## The hook, in one namespace after the other -/

/-- A call of `api.list`, with the namespace it was made for. -/
structure NsLoad extends Load where
  ns : String

/-- The hook with the namespace in view, and the server. -/
structure Tab (χ : Type) where
  ns : String
  cluster : Cluster χ
  rows : List Session
  loads : List NsLoad
  feed : Option Feed

namespace Tab

variable {χ : Type}

/-- What the stream and its messages work on. -/
def world (t : Tab χ) : World χ := ⟨t.cluster, ⟨t.rows, []⟩, t.feed⟩

/-- The loads after the effect has run again for this namespace. -/
def reload (t : Tab χ) (ns : String) : List NsLoad :=
  t.loads.map (fun l => if l.initial then { l with cancelled := true } else l) ++ [⟨⟨true, false, none⟩, ns⟩]

/-- A response arrives: `setRows`, unless the effect that asked was cleaned up. -/
def arrive (t : Tab χ) (i : Nat) (l : NsLoad) (resp : HttpResp) : Tab χ :=
  { t with
    rows := if l.initial && l.cancelled then t.rows else (apiList resp).getD t.rows
    loads := t.loads.eraseIdx i }

inductive Act where
  | stream (a : Ui.Act)
  | switch (ns : String)
  | effect
  | refresh (ns : String)
  | answered (i : Nat)
  | arrive (i : Nat)
  | fail (i : Nat)

variable (child : ChildApi χ) (d : ServerDeps) (pr : Claims)

inductive Step : Tab χ → Act → Tab χ → Prop where
  /-- What has nothing to do with loads: calls of others, the stream and its messages. -/
  | stream {t : Tab χ} {a : Ui.Act} {w : World χ} (step : Ui.Step child d pr t.ns t.world a w)
      (apart : w.page.loads = []) :
      Step t (.stream a) { t with cluster := w.cluster, rows := w.page.rows, feed := w.feed }
  /-- Another namespace is chosen: both effects run again. -/
  | switch {t : Tab χ} {ns : String} (other : ns ≠ t.ns) :
      Step t (.switch ns) { t with ns := ns, loads := t.reload ns, feed := none }
  /-- The introspection data changes: the effect that loads runs again. -/
  | effect {t : Tab χ} : Step t .effect { t with loads := t.reload t.ns }
  /-- `refresh()`, as it was when the action began that calls it. -/
  | refresh {t : Tab χ} {ns : String} :
      Step t (.refresh ns) { t with loads := t.loads ++ [⟨⟨false, false, none⟩, ns⟩] }
  | answered {t : Tab χ} {i : Nat} {l : NsLoad} (found : t.loads[i]? = some l) (waits : l.response = none) :
      Step t (.answered i) { t with
        loads := t.loads.set i { l with response := some (listResponse child d pr l.ns t.cluster) } }
  | arrive {t : Tab χ} {i : Nat} {l : NsLoad} {resp : HttpResp} (found : t.loads[i]? = some l)
      (response : l.response = some resp) : Step t (.arrive i) (t.arrive i l resp)
  | fail {t : Tab χ} {i : Nat} : Step t (.fail i) { t with loads := t.loads.eraseIdx i }

/-- Before anything is loaded. -/
def start (ns : String) (σ : Cluster χ) : Tab χ := ⟨ns, σ, [], [], none⟩

/-! ## What is claimed -/

/-- The load is for the namespace in view, and no name has changed since it was answered but those of
which a message is on its way. -/
def Timely (t : Tab χ) (l : NsLoad) (resp : HttpResp) : Prop :=
  l.ns = t.ns ∧ ∃ σ : Cluster χ, resp = listResponse child d pr t.ns σ ∧
    ∀ name, ¬ InFlight t.world name → atServer d pr t.ns t.cluster name = atServer d pr t.ns σ name

/-- What a step must not do, once the table is right: bring a response that is used and not timely;
connect the stream again while the page shows a Session that is gone; leave the namespace. -/
def Sound (t : Tab χ) : Act → Prop
  | .stream a => Ui.Sound d pr t.ns t.world a
  | .switch _ => False
  | .arrive i => ∀ l resp items, t.loads[i]? = some l → l.response = some resp →
    (l.initial && l.cancelled) = false → apiList resp = some items → Timely child d pr t l resp
  | _ => True

def AnyStep (t t' : Tab χ) : Prop := ∃ a, Step child d pr t a t'

def SoundStep (t t' : Tab χ) : Prop := ∃ a, Step child d pr t a t' ∧ Sound child d pr t a

/-- No response and no event is in flight, and the stream is connected. -/
def Quiet (t : Tab χ) : Prop := t.loads = [] ∧ ∃ idx, t.feed = some ⟨idx, []⟩

end Tab

namespace Tab

variable {χ : Type} {child : ChildApi χ} {d : ServerDeps} {pr : Claims} {ns : String} {t t' : Tab χ}

/-! ## The stream -/

/-- These rows will be the server's Sessions, once the messages on their way have arrived. -/
def Settles (d : ServerDeps) (pr : Claims) (t : Tab χ) (rows : List Session) : Prop :=
  (rows.map named).Nodup ∧ CaughtUp d pr t.ns ⟨t.cluster, ⟨rows, []⟩, t.feed⟩

/-- Some rows will be. -/
def Streams (d : ServerDeps) (pr : Claims) (t : Tab χ) : Prop := ∃ rows, Settles d pr t rows

/-- Where there is no connection, no message is owed. -/
theorem streams_closed (closed : t.feed = none) : Streams d pr t :=
  ⟨[], List.nodup_nil, fun _ open_ => absurd (closed.symm.trans open_) (Option.some_ne_none _).symm⟩

theorem settles_kept (single : ns ≠ "All") {w w' : World χ} {a : Ui.Act} (step : Ui.Step child d pr ns w a w')
    (sound : Ui.Sound d pr ns w a) (apart : w.page.loads = []) (nodup : (w.page.rows.map named).Nodup)
    (caught : CaughtUp d pr ns w) : (w'.page.rows.map named).Nodup ∧ CaughtUp d pr ns w' := by
  have distinct : Distinct w := ⟨nodup, fun l mem => absurd mem (apart ▸ List.not_mem_nil)⟩
  exact ⟨(distinct_step single distinct step).rows, (caughtUp_iff single distinct caught step).2 sound⟩

/-- The stream does to other rows what it does to those of the page; a new connection owes nothing to rows
that are none. -/
theorem streams_step {w : World χ} {a : Ui.Act} (single : t.ns ≠ "All") (streams : Streams d pr t)
    (step : Ui.Step child d pr t.ns t.world a w) (apart : w.page.loads = []) :
    ∃ rows, (rows.map named).Nodup ∧ CaughtUp d pr t.ns ⟨w.cluster, ⟨rows, []⟩, w.feed⟩ := by
  obtain ⟨ns, σ, rows, loads, feed⟩ := t
  obtain ⟨rows₀, nodup, caught⟩ := streams
  have other : ∀ {a' : Ui.Act} {w₀ : World χ}, Ui.Step child d pr ns ⟨σ, ⟨rows₀, []⟩, feed⟩ a' w₀ →
      Ui.Sound d pr ns ⟨σ, ⟨rows₀, []⟩, feed⟩ a' → w₀.cluster = w.cluster → w₀.feed = w.feed →
      ∃ rows, (rows.map named).Nodup ∧ CaughtUp d pr ns ⟨w.cluster, ⟨rows, []⟩, w.feed⟩ := by
    intro a' w₀ step₀ sound cluster feed
    have kept := settles_kept single step₀ sound rfl nodup caught
    exact ⟨w₀.page.rows, kept.1, cluster ▸ feed ▸ kept.2⟩
  cases step with
  | call answers => exact other (.call answers) trivial rfl rfl
  | drift same => exact other (.drift same) trivial rfl rfl
  | effect => exact absurd apart (List.append_ne_nil_of_right_ne_nil _ (List.cons_ne_nil _ _))
  | refresh => exact absurd apart (List.append_ne_nil_of_right_ne_nil _ (List.cons_ne_nil _ _))
  | answered found => cases found
  | arrive found => cases found
  | fail => exact ⟨rows₀, nodup, caught⟩
  | ping open_ => exact other (.ping open_) trivial rfl rfl
  | deliver open_ => exact other (.deliver open_) trivial rfl rfl
  | disconnect => exact other .disconnect trivial rfl rfl
  | @connect idx replayed closed may all =>
    let opened : Feed := Feed.send d pr ns σ.policy ⟨idx, [.ping "status" "connected"]⟩
      (replayed.map fun s => ⟨.added, .session s⟩)
    have fresh : Ui.Step child d pr ns ⟨σ, ⟨[], []⟩, feed⟩ .connect ⟨σ, ⟨[], []⟩, some opened⟩ := .connect closed may all
    have none : CaughtUp d pr ns ⟨σ, ⟨[], []⟩, feed⟩ :=
      fun _ open_ => absurd (closed.symm.trans open_) (Option.some_ne_none _).symm
    have kept := settles_kept single fresh (fun s mem => absurd mem List.not_mem_nil) rfl List.nodup_nil none
    exact ⟨_, kept.1, kept.2⟩

theorem streams_run {σ : Cluster χ} (run : Relation.ReflTransGen (AnyStep child d pr) (.start ns σ) t)
    (single : t.ns ≠ "All") : Streams d pr t := by
  induction run with
  | refl => exact streams_closed rfl
  | @tail t _ _ last ih =>
    obtain ⟨a, step⟩ := last
    cases step with
    | stream step apart => exact streams_step (t := t) single (ih single) step apart
    | switch other => exact streams_closed rfl
    | effect => exact ih single
    | refresh => exact ih single
    | answered => exact ih single
    | arrive => exact ih single
    | fail => exact ih single

/-! ## A response -/

variable {i : Nat} {l : NsLoad} {resp : HttpResp} {items : List Session}

/-- Whatever the rows were, a response that is used makes them right just if what it says of the names without
a message on its way is right. -/
theorem arrive_settles_iff (streams : Streams d pr t) {f : Feed} (open_ : t.feed = some f)
    (used : (l.initial && l.cancelled) = false) (listed : apiList resp = some items)
    (nodup : (items.map named).Nodup) : Settles d pr (t.arrive i l resp) (t.arrive i l resp).rows ↔
      ∀ name, ¬ InFlight t.world name →
        Option.Rel (Shown d) (row named name items) (atServer d pr t.ns t.cluster name) := by
  obtain ⟨rows₀, -, caught⟩ := streams
  have rows : (t.arrive i l resp).rows = items := by rw [arrive, if_neg (Bool.eq_false_iff.1 used), listed]; rfl
  have shows_iff := shows_replay_iff (caught f open_) nodup
  have flight := not_inFlight_iff (w := t.world) open_
  constructor
  · rintro ⟨-, caught'⟩ name free
    have shows : Shows named (Shown d) (replay named (t.arrive i l resp).rows _) _ := caught' f open_
    rw [rows] at shows
    exact shows_iff.1 shows name ((flight name).1 free)
  · intro right
    refine ⟨rows ▸ nodup, fun f' open' => ?_⟩
    cases open_.symm.trans open'
    show Shows named (Shown d) (replay named (t.arrive i l resp).rows _) _
    rw [rows]
    exact shows_iff.2 fun name free => right name ((flight name).2 free)

/-- A response in time makes them right. -/
theorem arrive_settles (single : t.ns ≠ "All") (streams : Streams d pr t) (used : (l.initial && l.cancelled) = false)
    (listed : apiList resp = some items) (timely : Timely child d pr t l resp) :
    Settles d pr (t.arrive i l resp) (t.arrive i l resp).rows := by
  obtain ⟨-, σ, rfl, since⟩ := timely
  have shows := listResponse_shows single listed
  cases feed : t.feed with
  | none =>
    have rows : (t.arrive i l (listResponse child d pr t.ns σ)).rows = items := by
      rw [arrive, if_neg (Bool.eq_false_iff.1 used), listed]; rfl
    exact ⟨rows ▸ shows.nodup, fun f open_ => absurd (feed.symm.trans open_) (Option.some_ne_none _).symm⟩
  | some f =>
    exact (arrive_settles_iff streams feed used listed shows.nodup).2 fun name free => since name free ▸ shows.rows name

/-! ## Runs -/

theorem settles_step (single : t.ns ≠ "All") (settles : Settles d pr t t.rows) (step : SoundStep child d pr t t') :
    t'.ns = t.ns ∧ Settles d pr t' t'.rows := by
  obtain ⟨a, step, sound⟩ := step
  cases step with
  | stream step apart => exact ⟨rfl, settles_kept single step sound rfl settles.1 settles.2⟩
  | switch other => exact sound.elim
  | effect => exact ⟨rfl, settles⟩
  | refresh => exact ⟨rfl, settles⟩
  | answered => exact ⟨rfl, settles⟩
  | @arrive i l resp found response =>
    refine ⟨rfl, ?_⟩
    cases dropped : l.initial && l.cancelled with
    | true =>
      have rows : (t.arrive i l resp).rows = t.rows := if_pos dropped
      exact rows ▸ settles
    | false =>
      cases listed : apiList resp with
      | none =>
        have rows : (t.arrive i l resp).rows = t.rows := by rw [arrive, if_neg (Bool.eq_false_iff.1 dropped), listed]; rfl
        exact rows ▸ settles
      | some items =>
        exact arrive_settles single ⟨_, settles⟩ dropped listed (sound l resp items found response dropped listed)
  | fail => exact ⟨rfl, settles⟩

theorem settles_run (single : t.ns ≠ "All") (settles : Settles d pr t t.rows)
    (run : Relation.ReflTransGen (SoundStep child d pr) t t') : t'.ns = t.ns ∧ Settles d pr t' t'.rows := by
  induction run with
  | refl => exact ⟨rfl, settles⟩
  | tail _ last ih =>
    obtain ⟨same, next⟩ := settles_step (ih.1 ▸ single) ih.2 last
    exact ⟨same.trans ih.1, next⟩

/-- A response of this call is used, lists something and is in time. -/
def Sets (child : ChildApi χ) (d : ServerDeps) (pr : Claims) (t : Tab χ) (i : Nat) : Prop :=
  ∃ l resp items, t.loads[i]? = some l ∧ l.response = some resp ∧ (l.initial && l.cancelled) = false ∧
    apiList resp = some items ∧ Timely child d pr t l resp

/-- **Main result.** However the namespace was changed before, and whatever is left of the rows and the calls of
other namespaces: once a response for the namespace in view arrives in time, the table converges to what the
server has there, as long as it is not left and no response is used that is not in time. -/
theorem switched_converges {σ : Cluster χ} {t₁ : Tab χ}
    (before : Relation.ReflTransGen (AnyStep child d pr) (.start ns σ) t) (single : t.ns ≠ "All")
    (arrives : Step child d pr t (.arrive i) t₁) (sets : Sets child d pr t i)
    (after : Relation.ReflTransGen (SoundStep child d pr) t₁ t') (quiet : t'.Quiet) :
    t'.ns = t.ns ∧ Converged d pr t.ns t'.world := by
  obtain ⟨l, resp, items, found, response, used, listed, timely⟩ := sets
  cases arrives with
  | arrive found' response' =>
    cases found.symm.trans found'
    cases response.symm.trans response'
    have settles := arrive_settles (i := i) single (streams_run before single) used listed timely
    obtain ⟨same, caught⟩ := settles_run (t := t.arrive i l resp) single settles after
    obtain ⟨-, idx, open_⟩ := quiet
    have same : t'.ns = t.ns := same
    exact ⟨same, same ▸ caught.2 _ open_⟩

/-! ## Two runs -/

/-- The messages on their way may all be delivered. -/
theorem delivered (child : ChildApi χ) (d : ServerDeps) (pr : Claims) (t : Tab χ) (idx : GoMap String AnchorMeta)
    (messages : List Sse) (rows : List Session) :
    Relation.ReflTransGen (fun t t' => Step child d pr t (.stream .deliver) t')
      { t with rows := rows, feed := some ⟨idx, messages⟩ }
      { t with rows := replay named rows (messages.map onMessage), feed := some ⟨idx, []⟩ } := by
  induction messages generalizing rows with
  | nil => exact .refl
  | cons sse rest ih => exact .head (.stream (.deliver rfl) rfl) (ih _)

end Tab

/-- The page begins in another namespace. -/
theorem switched_converges_back : ∃ t : Tab Manifest, t.ns = "ns" ∧ t.Quiet ∧
    Converged (.plain "i" false) viewer "ns" t.world := by
  let d : ServerDeps := .plain "i" false
  let begun (ns : String) : NsLoad := ⟨⟨true, false, none⟩, ns⟩
  let first : NsLoad := ⟨⟨true, true, none⟩, "b"⟩
  let answered : NsLoad := ⟨⟨true, false, some ownResponse⟩, "ns"⟩
  let t₀ : Tab Manifest := ⟨"b", ownCluster, [], [begun "b"], none⟩
  let t₁ : Tab Manifest := ⟨"ns", ownCluster, [], [first, begun "ns"], none⟩
  let t₂ : Tab Manifest := ⟨"ns", ownCluster, [], [first, answered], none⟩
  let t₃ : Tab Manifest := ⟨"ns", ownCluster, [], [first, answered], some connected⟩
  have opened : Tab.AnyStep replaceApi d viewer (.start "b" ownCluster) t₀ := ⟨.effect, .effect⟩
  have switched : Tab.AnyStep replaceApi d viewer t₀ t₁ := ⟨.switch "ns", .switch (by decide)⟩
  have served : Tab.AnyStep replaceApi d viewer t₁ t₂ := ⟨.answered 1, .answered (l := begun "ns") rfl rfl⟩
  have all : [ownSession].Perm (existing d viewer "ns" ownCluster) := by rw [existing_own]
  have streams : Tab.AnyStep replaceApi d viewer t₂ t₃ :=
    ⟨.stream .connect, .stream (w := ⟨ownCluster, ⟨[], []⟩, some connected⟩) (.connect rfl ⟨viewer, rfl, rfl⟩ all) rfl⟩
  have before := (((Relation.ReflTransGen.single opened).tail switched).tail served).tail streams
  -- the response arrives, then the messages; the first call fails
  obtain ⟨items, listed⟩ : ∃ items, apiList ownResponse = some items := Option.isSome_iff_exists.1 (by decide +kernel)
  have sets : Tab.Sets replaceApi d viewer t₃ 1 :=
    ⟨answered, ownResponse, items, rfl, rfl, rfl, listed, rfl, ownCluster, rfl, fun _ _ => rfl⟩
  have arrives : Tab.Step replaceApi d viewer t₃ (.arrive 1) (t₃.arrive 1 answered ownResponse) := .arrive rfl rfl
  have told : Relation.ReflTransGen (Tab.SoundStep replaceApi d viewer) _ _ :=
    (Tab.delivered replaceApi d viewer (t₃.arrive 1 answered ownResponse) ∅ connected.inFlight
      (t₃.arrive 1 answered ownResponse).rows).lift id fun _ _ step => ⟨.stream .deliver, step, trivial⟩
  have after := told.tail ⟨.fail 0, .fail, trivial⟩
  have converged := Tab.switched_converges before (by decide) arrives sets after ⟨rfl, ∅, rfl⟩
  exact ⟨_, rfl, ⟨rfl, ∅, rfl⟩, converged.2⟩

/-- A `refresh()` of a namespace that was left is used when it arrives, also after the response of the namespace
in view: the table then shows the Session of one namespace in another, which has none. No call fails. -/
theorem late_refresh_stays : ∃ t : Tab Manifest,
    Relation.ReflTransGen (fun t t' => ∃ a, Tab.Step replaceApi (.plain "i" false) viewer t a t' ∧ ∀ i, a ≠ .fail i)
      (.start "ns" ownCluster) t ∧
    t.ns = "b" ∧ t.Quiet ∧ existing (.plain "i" false) viewer "b" t.cluster = [] ∧
    t.rows.map Session.key = [⟨"ns", "a"⟩] := by
  let d : ServerDeps := .plain "i" false
  let asked : NsLoad := ⟨⟨false, false, none⟩, "ns"⟩
  let answered : NsLoad := ⟨⟨false, false, some ownResponse⟩, "ns"⟩
  let second : NsLoad := ⟨⟨true, false, none⟩, "b"⟩
  let nothing : HttpResp := listResponse replaceApi d viewer "b" ownCluster
  let listed : NsLoad := ⟨⟨true, false, some nothing⟩, "b"⟩
  let greeting : Feed := Feed.send d viewer "b" allowAll ⟨∅, [.ping "status" "connected"]⟩
    (([] : List Session).map fun s => ⟨.added, .session s⟩)
  let t₀ : Tab Manifest := ⟨"ns", ownCluster, [], [asked], none⟩
  let t₁ : Tab Manifest := ⟨"ns", ownCluster, [], [answered], none⟩
  let t₂ : Tab Manifest := ⟨"b", ownCluster, [], [answered, second], none⟩
  let t₃ : Tab Manifest := ⟨"b", ownCluster, [], [answered, listed], none⟩
  let t₄ : Tab Manifest := ⟨"b", ownCluster, [], [answered, listed], some greeting⟩
  let t₅ : Tab Manifest := ⟨"b", ownCluster, [], [answered, listed], some ⟨∅, []⟩⟩
  let Next (t t' : Tab Manifest) : Prop := ∃ a, Tab.Step replaceApi d viewer t a t' ∧ ∀ i, a ≠ .fail i
  have none : existing d viewer "b" ownCluster = [] := by decide +kernel
  have refreshes : Next (.start "ns" ownCluster) t₀ := ⟨.refresh "ns", .refresh, nofun⟩
  have served : Next t₀ t₁ := ⟨.answered 0, .answered (l := asked) rfl rfl, nofun⟩
  have switched : Next t₁ t₂ := ⟨.switch "b", .switch (by decide), nofun⟩
  have served' : Next t₂ t₃ := ⟨.answered 1, .answered (l := second) rfl rfl, nofun⟩
  have all : ([] : List Session).Perm (existing d viewer "b" ownCluster) := by rw [none]
  have streams : Next t₃ t₄ :=
    ⟨.stream .connect, .stream (w := ⟨ownCluster, ⟨[], []⟩, some greeting⟩) (.connect rfl ⟨viewer, rfl, rfl⟩ all) rfl,
      nofun⟩
  have greeted : Relation.ReflTransGen Next t₄ t₅ :=
    (Tab.delivered replaceApi d viewer t₄ ∅ greeting.inFlight []).lift id fun _ _ step => ⟨.stream .deliver, step, nofun⟩
  -- the rows of the namespace in view, and then those of the one that was left
  have inTime : Next t₅ (t₅.arrive 1 listed nothing) := ⟨.arrive 1, .arrive rfl rfl, nofun⟩
  have late : Next (t₅.arrive 1 listed nothing) ((t₅.arrive 1 listed nothing).arrive 0 answered ownResponse) :=
    ⟨.arrive 0, .arrive rfl rfl, nofun⟩
  have begun := ((Relation.ReflTransGen.single refreshes).tail served).tail switched
  have run := ((((begun.tail served').tail streams).trans greeted).tail inTime).tail late
  exact ⟨_, run, rfl, ⟨rfl, ∅, rfl⟩, none, by decide +kernel⟩

end Codespace.Ui
