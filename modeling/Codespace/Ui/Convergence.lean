import Codespace.Ui.Sessions

/-!
# Whether the session table converges

The invariant (`CaughtUp`): while the stream is connected, the rows as the messages on their
way will leave them are the server's Sessions. Every step keeps it but two. A response that
arrives late replaces rows that newer messages have made, and a new connection tells nothing of
what was deleted before it. `caughtUp_iff` says that each of them keeps the invariant just where
it is `Sound`, and `unsound_diverges` that otherwise the table is wrong once everything has
arrived.
-/

namespace Codespace.Ui
set_option autoImplicit false
open Interact Versioned Server Keyed

variable {χ : Type} {child : ChildApi χ} {d : ServerDeps} {pr : Claims} {ns : String}

/-! ## Requests for one namespace -/

section

variable (single : ns ≠ "All")
include single

theorem not_allNamespaces :
    allNamespaces (listRequest pr ns) = false ∧ allNamespaces (watchRequest pr ns) = false := by
  have query : namespaceQuery ns = [("namespace", ns)] := if_neg single
  simp [allNamespaces, queryGet, listRequest, watchRequest, query]

/-- What the stream sends for an event of a Session. -/
theorem streamEvent_single (idx : GoMap String AnchorMeta) (policy : Enforce) {type : EventType}
    (notError : type ≠ .error) (s : Session) :
    streamEvent d (watchRequest pr ns) pr idx policy ⟨type, .session s⟩ =
      [.message type (enrichStreamed d idx s)] := by
  simp [streamEvent, notError, (not_allNamespaces single).2]

/-- The server refuses to list, or sends what the namespace has. -/
theorem listResponse_cases (child : ChildApi χ) (d : ServerDeps) (pr : Claims) (σ : Cluster χ) :
    (∃ decision, listResponse child d pr ns σ = d.rbacMw.denied decision) ∨
    ∃ idx, listResponse child d pr ns σ = writeJSON (.sessionList
      ((existing d pr ns σ).map (enrich d idx)) (existing d pr ns σ).length [domain pr ns] false) := by
  have handler : serve d .sessions (listRequest pr ns) = handleListSessions d (listRequest pr ns) := rfl
  rw [listResponse, handler]
  unfold handleListSessions
  rw [(not_allNamespaces single).1, Prog.run_bind, run_mustCan rfl]
  simp only [Bool.false_eq_true, if_false]
  by_cases yes : granted (σ.policy pr.sub pr.roles sessionResourceString "list"
      (q (listRequest pr ns) "namespace" "default")) = true
  · rw [if_pos yes]
    refine .inr ?_
    show ∃ idx, ((sendList d (existing d pr ns σ) [domain pr ns] false).run (answer child) σ).1 = _
    unfold sendList
    cases d.clusterScope
    · exact ⟨∅, rfl⟩
    · exact ⟨σ.index, rfl⟩
  · rw [if_neg yes]
    exact .inl ⟨_, rfl⟩

/-- The items of a response that lists. -/
theorem listResponse_items {σ : Cluster χ} {items : List Session}
    (listed : apiList (listResponse child d pr ns σ) = some items) :
    ∃ idx, items = (existing d pr ns σ).map (enrich d idx) := by
  rcases listResponse_cases single child d pr σ with ⟨decision, eq⟩ | ⟨idx, eq⟩
  · have refused := d.rbacMw.denied_status decision
    rw [eq, apiList, if_neg (by omega)] at listed
    cases listed
  · rw [eq] at listed
    cases listed
    exact ⟨idx, rfl⟩

end

/-! ## What there is in the namespace -/

theorem atServer_eq_some {σ : Cluster χ} {name : String} {s : Session} :
    atServer d pr ns σ name = some s ↔
      σ.sessions.get ⟨domain pr ns, name⟩ = some s ∧ selects d (domain pr ns) s = true := by
  rw [atServer, Option.filter_eq_some_iff]

/-- What is selected at a key is in the namespace, under its own name. -/
theorem selected_key {σ : Cluster χ} {k : Key} {s : Session} (held : σ.sessions.get k = some s)
    (selected : selects d (domain pr ns) s = true) : k = ⟨domain pr ns, s.metadata.name⟩ := by
  have inside : s.metadata.ns = domain pr ns := by
    simp only [selects, inNamespace, Bool.and_eq_true, decide_eq_true_eq] at selected
    exact selected.1
  rw [← σ.keyed k s held, Session.key, inside]

theorem mem_existing {σ : Cluster χ} {s : Session} :
    s ∈ existing d pr ns σ ↔ atServer d pr ns σ s.metadata.name = some s := by
  rw [existing, List.mem_filter, Store.mem_list, atServer_eq_some]
  constructor
  · rintro ⟨⟨k, held⟩, selected⟩
    rw [selected_key held selected] at held
    exact ⟨held, selected⟩
  · rintro ⟨held, selected⟩
    exact ⟨⟨_, held⟩, selected⟩

theorem nodup_existing (σ : Cluster χ) : ((existing d pr ns σ).map named).Nodup := by
  have keys : ((existing d pr ns σ).map Session.key).Nodup :=
    (Store.nodup_list Key.le σ.sessions σ.keyed).sublist (List.filter_sublist.map _)
  have keyOf : ∀ s ∈ existing d pr ns σ, s.key = ⟨domain pr ns, named s⟩ := by
    intro s mem
    obtain ⟨held, selected⟩ := atServer_eq_some.1 (mem_existing.1 mem)
    exact (σ.keyed _ s held)
  rw [List.map_congr_left keyOf, ← Function.comp_def, ← List.map_map] at keys
  exact keys.of_map _

theorem row_existing (σ : Cluster χ) (name : String) :
    row named name (existing d pr ns σ) = atServer d pr ns σ name := by
  refine Option.ext fun s => ?_
  rw [row_eq_some (nodup_existing σ), mem_existing]
  constructor
  · rintro ⟨here, rfl⟩
    exact here
  · intro here
    have same : named s = name := by
      obtain ⟨held, selected⟩ := atServer_eq_some.1 here
      exact (congrArg Key.name (selected_key held selected)).symm
    exact ⟨(congrArg (atServer d pr ns σ) same).trans here, same⟩

/-- The Sessions of the namespace in any order, presented so that their names stay. -/
theorem shown_existing {σ : Cluster χ} {listed : List Session} {present : Session → Session}
    (all : listed.Perm (existing d pr ns σ)) (same : ∀ s, named (present s) = named s)
    (shown : ∀ s, Shown d (present s) s) :
    Shows named (Shown d) (listed.map present) (atServer d pr ns σ) := by
  have nodup : (listed.map named).Nodup := (all.map named).nodup_iff.2 (nodup_existing σ)
  refine ⟨?_, fun name => ?_⟩
  · rwa [List.map_map, show named ∘ present = named from funext same]
  · rw [row_map same, row_perm all nodup, row_existing]
    cases atServer d pr ns σ name with
    | none => exact .none
    | some s => exact .some (shown s)

/-- **A fresh response is right**: its items show what there was when it was sent. -/
theorem listResponse_shows (single : ns ≠ "All") {σ : Cluster χ} {items : List Session}
    (listed : apiList (listResponse child d pr ns σ) = some items) :
    Shows named (Shown d) items (atServer d pr ns σ) := by
  obtain ⟨idx, rfl⟩ := listResponse_items single listed
  exact shown_existing (.refl _) (fun _ => rfl) fun _ => ⟨idx, .inl rfl⟩

/-! ## The invariant -/

/-- No name is there twice, neither in the rows nor in a response on its way. -/
structure Distinct (w : World χ) : Prop where
  rows : (w.page.rows.map named).Nodup
  loads : ∀ l ∈ w.page.loads, ∀ resp items, l.response = some resp → apiList resp = some items →
    (items.map named).Nodup

/-- Once the messages on their way have arrived, the rows are the server's Sessions. -/
def CaughtUp (d : ServerDeps) (pr : Claims) (ns : String) (w : World χ) : Prop :=
  ∀ f, w.feed = some f → Shows named (Shown d) (replay named w.page.rows (f.inFlight.map onMessage))
    (atServer d pr ns w.cluster)

theorem distinct_start (σ : Cluster χ) : Distinct (World.start σ) :=
  ⟨List.nodup_nil, fun _ mem => absurd mem List.not_mem_nil⟩

theorem caughtUp_start (σ : Cluster χ) : CaughtUp d pr ns (World.start σ) := by
  rintro f ⟨⟩

/-- Loads that are dropped or begun bring nothing new. -/
theorem Distinct.of_loads {w w' : World χ} (distinct : Distinct w) (rows : (w'.page.rows.map named).Nodup)
    (loads : ∀ l ∈ w'.page.loads, l.response = none ∨ ∃ l' ∈ w.page.loads, l'.response = l.response) :
    Distinct w' := by
  refine ⟨rows, fun l mem resp items response listed => ?_⟩
  rcases loads l mem with none | ⟨l', mem', same⟩
  · cases none.symm.trans response
  · exact distinct.loads l' mem' resp items (same.trans response) listed

theorem distinct_step (single : ns ≠ "All") {w w' : World χ} {a : Act} (distinct : Distinct w)
    (step : Step child d pr ns w a w') : Distinct w' := by
  cases step with
  | call _ => exact ⟨distinct.rows, distinct.loads⟩
  | drift _ => exact ⟨distinct.rows, distinct.loads⟩
  | effect =>
    refine distinct.of_loads distinct.rows fun l mem => ?_
    rcases List.mem_append.1 mem with old | new
    · obtain ⟨l', mem', rfl⟩ := List.mem_map.1 old
      refine .inr ⟨l', mem', ?_⟩
      split <;> rfl
    · exact .inl (by rw [List.mem_singleton.1 new])
  | refresh =>
    refine distinct.of_loads distinct.rows fun l mem => ?_
    rcases List.mem_append.1 mem with old | new
    · exact .inr ⟨l, old, rfl⟩
    · exact .inl (by rw [List.mem_singleton.1 new])
  | @answered i l₀ found waits =>
    refine ⟨distinct.rows, fun l mem resp items response listed => ?_⟩
    rcases List.mem_or_eq_of_mem_set mem with old | rfl
    · exact distinct.loads l old resp items response listed
    · cases response
      exact (listResponse_shows single listed).nodup
  | @arrive i l resp found response =>
    refine distinct.of_loads ?_ fun l mem => .inr ⟨l, List.mem_of_mem_eraseIdx mem, rfl⟩
    show ((if l.initial && l.cancelled then w.page.rows else (apiList resp).getD w.page.rows).map named).Nodup
    split
    · exact distinct.rows
    · cases listed : apiList resp with
      | none => exact distinct.rows
      | some items => exact distinct.loads l (List.mem_of_getElem? found) resp items response listed
  | fail => exact distinct.of_loads distinct.rows fun l mem => .inr ⟨l, List.mem_of_mem_eraseIdx mem, rfl⟩
  | ping _ => exact ⟨distinct.rows, distinct.loads⟩
  | deliver _ => exact ⟨nodup_apply distinct.rows _, distinct.loads⟩
  | disconnect => exact ⟨distinct.rows, distinct.loads⟩
  | connect _ _ _ => exact ⟨distinct.rows, distinct.loads⟩

/-! ## Events -/

/-- What the message of an event does. -/
theorem sent_update (single : ns ≠ "All") (idx : GoMap String AnchorMeta) (policy : Enforce) {type : EventType}
    (notError : type ≠ .error) (s : Session) :
    ([⟨type, .session s⟩].flatMap (streamEvent d (watchRequest pr ns) pr idx policy)).map onMessage =
      [if type = .deleted then .drop (named s) else .put (enrichStreamed d idx s)] := by
  rw [List.flatMap_singleton, streamEvent_single single idx policy notError, List.map_singleton, onMessage,
    enrichStreamed_name]

/-- A watch's events make of rows that show the Sessions before rows that show them after. -/
theorem shows_watchEvents (single : ns ≠ "All") (idx : GoMap String AnchorMeta) (policy : Enforce)
    {σ σ' : Cluster χ} {name : String} {rows : List Session}
    (shows : Shows named (Shown d) rows (atServer d pr ns σ))
    (elsewhere : ∀ name', name' ≠ name → atServer d pr ns σ' name' = atServer d pr ns σ name') :
    Shows named (Shown d) (replay named rows (((watchEvents (selects d (domain pr ns))
      (σ.sessions.get ⟨domain pr ns, name⟩) (σ'.sessions.get ⟨domain pr ns, name⟩)).flatMap
        (streamEvent d (watchRequest pr ns) pr idx policy)).map onMessage)) (atServer d pr ns σ') := by
  have nameOf : ∀ {ρ : Cluster χ} {s}, atServer d pr ns ρ name = some s → named s = name := by
    intro ρ s here
    obtain ⟨held, selected⟩ := atServer_eq_some.1 here
    exact (congrArg Key.name (selected_key held selected)).symm
  have unchanged : atServer d pr ns σ' name = atServer d pr ns σ name →
      Shows named (Shown d) rows (atServer d pr ns σ') := by
    intro same
    have all : atServer d pr ns σ' = atServer d pr ns σ := by
      funext name'
      by_cases other : name' = name
      · rw [other, same]
      · exact elsewhere name' other
    rwa [all]
  have puts : ∀ s, atServer d pr ns σ' name = some s →
      Shows named (Shown d) (put named (enrichStreamed d idx s) rows) (atServer d pr ns σ') := by
    intro s now
    have own : named (enrichStreamed d idx s) = name := (enrichStreamed_name s).trans (nameOf now)
    exact shows.put ⟨idx, .inr rfl⟩ (own ▸ now) fun name' other => elsewhere name' (own ▸ other)
  unfold watchEvents
  split
  · rename_i before after
    exact unchanged (Eq.trans after (Eq.symm before))
  · rename_i s before after
    rw [sent_update single idx policy (by decide), if_neg (by decide)]
    exact puts s after
  · rename_i s before after
    rw [sent_update single idx policy (by decide), if_pos rfl, nameOf before]
    exact shows.drop after elsewhere
  · rename_i s s' before after
    split
    · rename_i same
      subst same
      exact unchanged (Eq.trans after (Eq.symm before))
    · rw [sent_update single idx policy (by decide), if_neg (by decide)]
      exact puts s' after

theorem shows_callEvents (single : ns ≠ "All") (idx : GoMap String AnchorMeta) (policy : Enforce)
    {σ σ' : Cluster χ} {c : Call} {r : Answer c} {rows : List Session} (answers : Answers child σ c r σ')
    (shows : Shows named (Shown d) rows (atServer d pr ns σ)) :
    Shows named (Shown d) (replay named rows (((callEvents d pr ns c σ σ').flatMap
      (streamEvent d (watchRequest pr ns) pr idx policy)).map onMessage)) (atServer d pr ns σ') := by
  have elsewhere : ∀ name, c.writes ≠ some ⟨domain pr ns, name⟩ →
      atServer d pr ns σ' name = atServer d pr ns σ name := by
    intro name other
    rw [atServer, answers_elsewhere answers other, atServer]
  unfold callEvents
  cases writes : c.writes with
  | none =>
    have all : atServer d pr ns σ' = atServer d pr ns σ := funext fun name => elsewhere name (by simp [writes])
    rwa [all]
  | some k =>
    by_cases inside : k.ns = domain pr ns
    · have key : k = ⟨domain pr ns, k.name⟩ := by rw [← inside]
      rw [key] at writes ⊢
      refine shows_watchEvents single idx policy shows fun name other => elsewhere name ?_
      rw [writes]
      exact fun same => other (congrArg Key.name (Option.some.inj same)).symm
    · have hidden : ∀ ρ : Cluster χ, (ρ.sessions.get k).filter (selects d (domain pr ns)) = none := by
        intro ρ
        refine Option.eq_none_iff_forall_ne_some.2 fun s found => inside ?_
        obtain ⟨held, selected⟩ := Option.filter_eq_some_iff.1 found
        exact congrArg Key.ns (selected_key held selected)
      have all : atServer d pr ns σ' = atServer d pr ns σ := funext fun name => elsewhere name (by
        rw [writes]
        exact fun same => inside (congrArg Key.ns (Option.some.inj same)))
      simp only [watchEvents, hidden, all]
      exact shows

/-! ## Steps -/

theorem not_inFlight_iff {w : World χ} {f : Feed} (open_ : w.feed = some f) (name : String) :
    ¬ InFlight w name ↔ ∀ u ∈ f.inFlight.map onMessage, ¬ u.touches named name := by
  constructor
  · intro free u mem touches
    obtain ⟨sse, sent, rfl⟩ := List.mem_map.1 mem
    exact free ⟨f, open_, sse, sent, touches⟩
  · rintro free ⟨f', open', sse, mem, touches⟩
    cases open_.symm.trans open'
    exact free _ (List.mem_map_of_mem mem) touches

/-- A response that arrives. -/
theorem caughtUp_arrive_iff {w : World χ} {i : Nat} {l : Load} {resp : HttpResp} (distinct : Distinct w)
    (caught : CaughtUp d pr ns w) (found : w.page.loads[i]? = some l) (response : l.response = some resp) :
    CaughtUp d pr ns { w with page := w.page.arrive i l resp } ↔ Sound d pr ns w (.arrive i) := by
  have kept : (w.page.arrive i l resp).rows = w.page.rows →
      CaughtUp d pr ns { w with page := w.page.arrive i l resp } := by
    intro same f open_
    show Shows named _ (replay named (w.page.arrive i l resp).rows _) _
    rw [same]
    exact caught f open_
  cases dropped : l.initial && l.cancelled with
  | true =>
    refine iff_of_true (kept (if_pos dropped)) fun _ l' resp' items found' _ used => ?_
    cases found.symm.trans found'
    cases dropped.symm.trans used
  | false =>
    have rows : (w.page.arrive i l resp).rows = (apiList resp).getD w.page.rows :=
      if_neg (Bool.eq_false_iff.1 dropped)
    cases listed : apiList resp with
    | none =>
      refine iff_of_true (kept (by rw [rows, listed]; rfl)) fun _ l' resp' items found' response' _ listed' => ?_
      cases found.symm.trans found'
      cases response.symm.trans response'
      cases listed.symm.trans listed'
    | some items =>
      rcases Option.eq_none_or_eq_some w.feed with closed | ⟨f, open_⟩
      · refine iff_of_true (fun f open_ => ?_) fun connected => ?_
        · cases closed.symm.trans open_
        · rw [closed] at connected
          cases connected
      · have nodup := distinct.loads l (List.mem_of_getElem? found) resp items response listed
        have shows_iff := shows_replay_iff (caught f open_) nodup
        rw [listed] at rows
        constructor
        · intro caught' _ l' resp' items' found' response' _ listed' name free
          cases found.symm.trans found'
          cases response.symm.trans response'
          cases listed.symm.trans listed'
          have shows : Shows named (Shown d) (replay named (w.page.arrive i l resp).rows _) _ := caught' f open_
          rw [rows] at shows
          exact shows_iff.1 shows name ((not_inFlight_iff open_ name).1 free)
        · intro sound f' open'
          cases open_.symm.trans open'
          show Shows named (Shown d) (replay named (w.page.arrive i l resp).rows _) _
          rw [rows]
          exact shows_iff.2 fun name free => sound (by rw [open_]; rfl) l resp items found response dropped listed
            name ((not_inFlight_iff open_ name).2 free)

/-- A connection that is made. -/
theorem caughtUp_connect_iff (single : ns ≠ "All") {w : World χ} {idx : GoMap String AnchorMeta}
    {replayed : List Session} (policy : Enforce) (distinct : Distinct w)
    (all : replayed.Perm (existing d pr ns w.cluster)) :
    CaughtUp d pr ns { w with feed := some (Feed.send d pr ns policy ⟨idx, [.ping "status" "connected"]⟩
      (replayed.map fun s => ⟨.added, .session s⟩)) } ↔ Sound d pr ns w .connect := by
  have messages : ∀ ss : List Session, ((ss.map fun s => (⟨.added, .session s⟩ : WatchEvent)).flatMap
      (streamEvent d (watchRequest pr ns) pr idx policy)).map onMessage =
        (ss.map (enrichStreamed d idx)).map .put := by
    intro ss
    induction ss with
    | nil => rfl
    | cons s ss ih =>
      rw [List.map_cons, List.flatMap_cons, streamEvent_single single idx policy (by decide), List.map_append, ih]
      rfl
  have shows := shown_existing all (fun s => enrichStreamed_name s) fun s => ⟨idx, .inr rfl⟩
  have shows_iff := shows_puts_iff distinct.rows shows.nodup shows.rows
  have caught_iff : CaughtUp d pr ns { w with feed := some (Feed.send d pr ns policy
      ⟨idx, [.ping "status" "connected"]⟩ (replayed.map fun s => ⟨.added, .session s⟩)) } ↔
      Shows named (Shown d) (replay named w.page.rows ((replayed.map (enrichStreamed d idx)).map .put))
        (atServer d pr ns w.cluster) := by
    rw [← messages]
    constructor
    · exact fun caught => caught _ rfl
    · rintro caught f ⟨⟩
      exact caught
  exact caught_iff.trans shows_iff

/-- **The steps.** A step keeps the invariant just where it is sound. -/
theorem caughtUp_iff (single : ns ≠ "All") {w w' : World χ} {a : Act} (distinct : Distinct w)
    (caught : CaughtUp d pr ns w) (step : Step child d pr ns w a w') :
    CaughtUp d pr ns w' ↔ Sound d pr ns w a := by
  cases step with
  | call answers =>
    refine iff_of_true (fun f' open' => ?_) trivial
    obtain ⟨f, open_, rfl⟩ := Option.map_eq_some_iff.1 open'
    show Shows named _ (replay named _ (List.map _ (f.inFlight ++ _))) _
    rw [List.map_append, replay_append]
    exact shows_callEvents single f.idx _ answers (caught f open_)
  | @drift σ' same =>
    have all : atServer d pr ns σ' = atServer d pr ns w.cluster := by
      funext name
      rw [atServer, same, atServer]
    refine iff_of_true (fun f open_ => ?_) trivial
    rw [all]
    exact caught f open_
  | effect => exact iff_of_true caught trivial
  | refresh => exact iff_of_true caught trivial
  | answered _ _ => exact iff_of_true caught trivial
  | arrive found response => exact caughtUp_arrive_iff distinct caught found response
  | fail => exact iff_of_true caught trivial
  | ping open_ =>
    refine iff_of_true ?_ trivial
    rintro f' ⟨⟩
    rw [List.map_append, replay_append]
    exact caught _ open_
  | deliver open_ =>
    refine iff_of_true ?_ trivial
    rintro f' ⟨⟩
    exact caught _ open_
  | disconnect => exact iff_of_true (by rintro f ⟨⟩) trivial
  | connect closed may all => exact caughtUp_connect_iff single _ distinct all

/-- A response may arrive as long as every Session that has changed since it was taken has a
message on its way. -/
theorem sound_arrive (single : ns ≠ "All") {w : World χ} {i : Nat} {l : Load} {σ : Cluster χ}
    (found : w.page.loads[i]? = some l) (taken : l.response = some (listResponse child d pr ns σ))
    (since : ∀ name, ¬ InFlight w name → atServer d pr ns w.cluster name = atServer d pr ns σ name) :
    Sound d pr ns w (.arrive i) := by
  intro _ l' resp items found' response _ listed name free
  cases found.symm.trans found'
  cases taken.symm.trans response
  rw [since name free]
  exact (listResponse_shows single listed).rows name

/-! ## Runs -/

/-- A step of any kind. -/
def AnyStep (child : ChildApi χ) (d : ServerDeps) (pr : Claims) (ns : String) (w w' : World χ) : Prop :=
  ∃ a, Step child d pr ns w a w'

/-- A step that is sound. -/
def SoundStep (child : ChildApi χ) (d : ServerDeps) (pr : Claims) (ns : String) (w w' : World χ) : Prop :=
  ∃ a, Step child d pr ns w a w' ∧ Sound d pr ns w a

theorem caughtUp_run (single : ns ≠ "All") {σ : Cluster χ} {w : World χ}
    (run : Relation.ReflTransGen (SoundStep child d pr ns) (.start σ) w) : Distinct w ∧ CaughtUp d pr ns w := by
  induction run with
  | refl => exact ⟨distinct_start σ, caughtUp_start σ⟩
  | tail _ last ih =>
    obtain ⟨a, step, sound⟩ := last
    exact ⟨distinct_step single ih.1 step, (caughtUp_iff single ih.1 ih.2 step).2 sound⟩

/-- **Main result.** In every run whose steps are sound the table has converged whenever no
response and no event is in flight and the stream is connected. -/
theorem rows_converge (single : ns ≠ "All") {σ : Cluster χ} {w : World χ}
    (run : Relation.ReflTransGen (SoundStep child d pr ns) (.start σ) w) (quiet : Quiet w) :
    Converged d pr ns w := by
  obtain ⟨-, idx, open_⟩ := quiet
  exact (caughtUp_run single run).2 _ open_

/-- What a table that has converged shows: the server's Sessions, each once and in the version
that is stored, in some order. -/
theorem Converged.versions {w : World χ} (converged : Converged d pr ns w) :
    (w.page.rows.map fun s => (named s, s.metadata.resourceVersion)).Perm
      ((existing d pr ns w.cluster).map fun s => (named s, s.metadata.resourceVersion)) := by
  have nodup : ∀ {l : List Session}, (l.map named).Nodup →
      (l.map fun s => (named s, s.metadata.resourceVersion)).Nodup := by
    intro l distinct
    refine List.Nodup.of_map Prod.fst ?_
    rwa [List.map_map]
  have pair : ∀ {l : List Session} {name : String} {v : Nat}, (l.map named).Nodup →
      ((name, v) ∈ l.map (fun s => (named s, s.metadata.resourceVersion)) ↔
        ∃ s, row named name l = some s ∧ s.metadata.resourceVersion = v) := by
    intro l name v distinct
    simp only [List.mem_map, Prod.mk.injEq, row_eq_some distinct, and_assoc]
  refine (List.perm_ext_iff_of_nodup (nodup converged.nodup) (nodup (nodup_existing _))).2 fun shown => ?_
  obtain ⟨name, v⟩ := shown
  rw [pair converged.nodup, pair (nodup_existing _), row_existing]
  have version : ∀ {row s : Session}, Shown d row s → row.metadata.resourceVersion = s.metadata.resourceVersion := by
    rintro row s ⟨idx, rfl | rfl⟩
    · rfl
    · exact enrichStreamed_resourceVersion s
  have rel := converged.rows name
  revert rel
  generalize row named name w.page.rows = shown
  generalize atServer d pr ns w.cluster name = stored
  rintro (shown | _)
  · simp [version shown]
  · simp

/-- The messages on their way may all arrive. -/
theorem drain (child : ChildApi χ) (d : ServerDeps) (pr : Claims) (ns : String) (σ : Cluster χ)
    (loads : List Load) (idx : GoMap String AnchorMeta) (messages : List Sse) (rows : List Session) :
    Relation.ReflTransGen (fun w w' => Step child d pr ns w .deliver w')
      ⟨σ, ⟨rows, loads⟩, some ⟨idx, messages⟩⟩
      ⟨σ, ⟨replay named rows (messages.map onMessage), loads⟩, some ⟨idx, []⟩⟩ := by
  induction messages generalizing rows with
  | nil => exact .refl
  | cons sse rest ih => exact .head (.deliver rfl) (ih _)

/-- **The condition is needed.** After a step that is not sound, with no other response on its
way, the table has not converged once the messages have arrived. -/
theorem unsound_diverges (single : ns ≠ "All") {σ : Cluster χ} {w w' : World χ} {a : Act}
    (run : Relation.ReflTransGen (SoundStep child d pr ns) (.start σ) w) (step : Step child d pr ns w a w')
    (unsound : ¬ Sound d pr ns w a) (last : w'.page.loads = []) :
    ∃ w'', Relation.ReflTransGen (fun w w' => Step child d pr ns w .deliver w') w' w'' ∧ Quiet w'' ∧
      ¬ Converged d pr ns w'' := by
  obtain ⟨distinct, caught⟩ := caughtUp_run single run
  have behind : ¬ CaughtUp d pr ns w' := fun caught' => unsound ((caughtUp_iff single distinct caught step).1 caught')
  obtain ⟨cluster, ⟨rows, loads⟩, feed⟩ := w'
  cases last
  cases feed with
  | none =>
    refine absurd ?_ behind
    rintro f ⟨⟩
  | some f =>
    refine ⟨_, drain child d pr ns cluster [] f.idx f.inFlight rows, ⟨rfl, f.idx, rfl⟩, fun converged => behind ?_⟩
    rintro f' ⟨⟩
    exact converged

/-! ## Two runs -/

def viewer : Claims := ⟨"u", []⟩

/-- A cluster with one Session of the instance `i`. -/
def ownCluster : Cluster Manifest := .single allowAll (sessionOf "i")

/-- The Session as it is stored there. -/
def ownSession : Session := stamp 1 (sessionOf "i")

theorem existing_own : existing (.plain "i" false) viewer "ns" ownCluster = [ownSession] := by decide +kernel

/-- The table is being loaded. -/
def loading : Page := Page.blank.effect

/-- What the server answers to it. -/
def ownResponse : HttpResp := listResponse replaceApi (.plain "i" false) viewer "ns" ownCluster

/-- The snapshot is on its way. -/
def snapshot : Page := loading.answered 0 ⟨true, false, none⟩ ownResponse

/-- A new connection. -/
def connected : Feed := Feed.send (.plain "i" false) viewer "ns" allowAll ⟨∅, [.ping "status" "connected"]⟩
  ([ownSession].map fun s => ⟨.added, .session s⟩)

/-- The page asks for the list, which is answered; then the stream connects. -/
theorem snapshot_reached : Relation.ReflTransGen (SoundStep replaceApi (.plain "i" false) viewer "ns")
    (.start ownCluster) ⟨ownCluster, snapshot, some connected⟩ := by
  have asked : SoundStep replaceApi (.plain "i" false) viewer "ns" (.start ownCluster)
      ⟨ownCluster, loading, none⟩ := ⟨.effect, .effect, trivial⟩
  have served : SoundStep replaceApi (.plain "i" false) viewer "ns" ⟨ownCluster, loading, none⟩
      ⟨ownCluster, snapshot, none⟩ := ⟨.answered 0, .answered rfl rfl, trivial⟩
  have all : [ownSession].Perm (existing (.plain "i" false) viewer "ns" ownCluster) := by rw [existing_own]
  have opened : SoundStep replaceApi (.plain "i" false) viewer "ns" ⟨ownCluster, snapshot, none⟩
      ⟨ownCluster, snapshot, some connected⟩ :=
    ⟨.connect, .connect rfl ⟨viewer, rfl, rfl⟩ all, fun s mem => absurd mem List.not_mem_nil⟩
  exact .tail (.tail (.single asked) served) opened

/-- The snapshot arrives. -/
def arrived (rows : List Session) : Page :=
  { snapshot with rows := rows }.arrive 0 ⟨true, false, some ownResponse⟩ ownResponse

/-- Where the snapshot arrives first, the table has converged once the messages are delivered. -/
theorem early_converged : ∃ w, Relation.ReflTransGen (SoundStep replaceApi (.plain "i" false) viewer "ns")
    (.start ownCluster) w ∧ Quiet w ∧ Converged (.plain "i" false) viewer "ns" w := by
  have single : "ns" ≠ "All" := by decide
  have early : SoundStep replaceApi (.plain "i" false) viewer "ns" ⟨ownCluster, snapshot, some connected⟩
      ⟨ownCluster, arrived [], some connected⟩ :=
    ⟨.arrive 0, .arrive rfl rfl, sound_arrive single rfl rfl fun _ _ => rfl⟩
  have delivered := drain replaceApi (.plain "i" false) viewer "ns"
    ownCluster [] ∅ connected.inFlight (arrived []).rows
  have run := (snapshot_reached.tail early).trans (delivered.lift id fun _ _ step => ⟨.deliver, step, trivial⟩)
  exact ⟨_, run, ⟨rfl, ∅, rfl⟩, rows_converge single run ⟨rfl, ∅, rfl⟩⟩

/-- The cluster without the Session. -/
def emptied : Cluster Manifest := (answer replaceApi ownCluster (.delete ⟨"ns", "a"⟩)).2

/-- The messages on the connection after the deletion. -/
def told : Feed := connected.send (.plain "i" false) viewer "ns" allowAll
  (callEvents (.plain "i" false) viewer "ns" (.delete ⟨"ns", "a"⟩) ownCluster emptied)

/-- Where the Session is deleted first, and the snapshot arrives after the messages that tell so,
the table goes on to show it. -/
theorem late_diverged : ∃ w,
    Relation.ReflTransGen (AnyStep replaceApi (.plain "i" false) viewer "ns") (.start ownCluster) w ∧
    Quiet w ∧ existing (.plain "i" false) viewer "ns" w.cluster = [] ∧ (row named "a" w.page.rows).isSome = true ∧
    ¬ Converged (.plain "i" false) viewer "ns" w := by
  let rows := replay named snapshot.rows (told.inFlight.map onMessage)
  have deleted : Step replaceApi (.plain "i" false) viewer "ns" ⟨ownCluster, snapshot, some connected⟩
      (.call (.delete ⟨"ns", "a"⟩)) ⟨emptied, snapshot, some told⟩ := .call (answers_answer replaceApi ownCluster _)
  have delivered := drain replaceApi (.plain "i" false) viewer "ns"
    emptied snapshot.loads ∅ told.inFlight snapshot.rows
  have late : Step replaceApi (.plain "i" false) viewer "ns" ⟨emptied, { snapshot with rows := rows }, some ⟨∅, []⟩⟩
      (.arrive 0) ⟨emptied, arrived rows, some ⟨∅, []⟩⟩ := .arrive rfl rfl
  have reached : Relation.ReflTransGen (AnyStep replaceApi (.plain "i" false) viewer "ns") (.start ownCluster)
      ⟨ownCluster, snapshot, some connected⟩ :=
    snapshot_reached.lift id fun _ _ sound => sound.imp fun _ both => both.1
  have emptying : Relation.ReflTransGen (AnyStep replaceApi (.plain "i" false) viewer "ns")
      ⟨emptied, snapshot, some told⟩ ⟨emptied, { snapshot with rows := rows }, some ⟨∅, []⟩⟩ :=
    delivered.lift id fun _ _ step => ⟨.deliver, step⟩
  have run := ((reached.tail ⟨_, deleted⟩).trans emptying).tail ⟨_, late⟩
  have gone : existing (.plain "i" false) viewer "ns" emptied = [] := by decide +kernel
  have stale : (row named "a" (arrived rows).rows).isSome = true := by decide +kernel
  refine ⟨_, run, ⟨rfl, ∅, rfl⟩, gone, stale, fun converged => ?_⟩
  have absent : atServer (.plain "i" false) viewer "ns" emptied "a" = none := by
    rw [← row_existing, gone]
    rfl
  have missing := (rel_none_iff (converged.rows "a")).2 absent
  rw [missing] at stale
  cases stale

end Codespace.Ui
