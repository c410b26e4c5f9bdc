import Codespace.Server.Updates

/-!
# Retries after a Conflict

`RetryOnConflict` runs its function again when the API server answers with Conflict. In
the handlers that function is one Update of a Session that was fetched and changed before,
so it sends the same version again, and where one attempt is refused, all are. `Raced` is
the setting in which this shows: others write until the first attempt, and nobody writes
afterwards. A request gets through exactly if nobody has written at all (`Unraced`).
-/

namespace Codespace.Server
set_option autoImplicit false
open Interact Versioned

variable {χ : Type} {child : ChildApi χ} {d : ServerDeps} {r : Request} {route : Route}

/-! ## What the log tells -/

def eventGot (ev : Event Call Answer (Cluster χ)) : Option (Key × Session) :=
  match ev.call, ev.answer with
  | .get k, .ok s => some (k, s)
  | _, _ => none

def eventFound (ev : Event Call Answer (Cluster χ)) : Option (Cluster χ) :=
  match ev.call with
  | .update _ => some ev.before
  | _ => none

/-- The Session that was fetched, and its key. -/
def fetchedIn (l : CallLog χ) : Option (Key × Session) := l.findSome? eventGot

/-- The cluster as the first Update found it. -/
def firstUpdate (l : CallLog χ) : Option (Cluster χ) := l.findSome? eventFound

theorem fetchedIn_snoc (l : CallLog χ) (ev : Event Call Answer (Cluster χ)) :
    fetchedIn (l ++ [ev]) = (fetchedIn l).or (eventGot ev) := by
  simp [fetchedIn, List.findSome?_append]

theorem firstUpdate_snoc (l : CallLog χ) (ev : Event Call Answer (Cluster χ)) :
    firstUpdate (l ++ [ev]) = (firstUpdate l).or (eventFound ev) := by
  simp [firstUpdate, List.findSome?_append]

theorem eventGot_of_ne {c : Call} (other : ∀ k, c ≠ .get k) (a : Answer c) (σ σ' : Cluster χ) :
    eventGot ⟨c, a, σ, σ'⟩ = none := by
  cases c with
  | get k => exact absurd rfl (other k)
  | _ => rfl

theorem eventFound_of_ne {c : Call} (other : ∀ s, c ≠ .update s) (a : Answer c) (σ σ' : Cluster χ) :
    eventFound ⟨c, a, σ, σ'⟩ = none := by
  cases c with
  | update s => exact absurd rfl (other s)
  | _ => rfl

/-! ## The setting -/

/-- Others write until the first Update of the request arrives. From then on nobody writes and
no call fails. -/
def Raced (child : ChildApi χ) : Setting Call Answer (LoggedView χ) where
  answer := fun v c a v' => v'.2 = v.2 ++ [⟨c, a, v.1, v'.1⟩] ∧ Answers child v.1 c a v'.1 ∧
    (firstUpdate v'.2 ≠ none → (a, v'.1) = answer child v.1 c)
  rely := fun v v' => v'.2 = v.2 ∧ Later v.1.sessions v'.1.sessions ∧ (firstUpdate v.2 ≠ none → v'.1 = v.1)
  rely_refl := fun _ => ⟨rfl, .refl _, fun _ => rfl⟩
  rely_trans := fun h h' => ⟨h'.1.trans h.1, h.2.1.trans h'.2.1, fun sent =>
    (h'.2.2 (by rw [h.1]; exact sent)).trans (h.2.2 sent)⟩

/-- The request has succeeded, and its change was made to the Session as the others left it. -/
def OnTop (d : ServerDeps) (route : Route) (r : Request) (resp : HttpResp) (v : LoggedView χ) : Prop :=
  resp.status < 300 ∧ ∃ now k change base cur, transformation d route r now = some (k, change) ∧
    firstUpdate v.2 = some base ∧ base.sessions.get k = some cur ∧
    v.1.sessions = base.sessions.write k (change cur)

/-- Nobody has written the Session between the Get and the first Update. -/
def Unraced (l : CallLog χ) : Prop :=
  ∃ k cur base, fetchedIn l = some (k, cur) ∧ firstUpdate l = some base ∧ base.sessions.get k = some cur

/-! ## The invariants -/

/-- The Session was stored at the key at some earlier state. -/
def StoredBefore (k : Key) (cur : Session) (σ' : Cluster χ) : Prop :=
  ∃ σ : Cluster χ, σ.sessions.get k = some cur ∧ cur.key = k ∧ cur.Held ∧ Later σ.sessions σ'.sessions

theorem StoredBefore.current {k : Key} {cur sent found : Session} {σ : Cluster χ} (h : StoredBefore k cur σ)
    (same : sent.SameObject cur) (ok : σ.sessions.check sent.key sent.metadata.resourceVersion = .ok found) :
    σ.sessions.get k = some cur ∧ found = cur := by
  obtain ⟨σ₀, held, key, -, later⟩ := h
  rw [same.key, key, same.version] at ok
  have eq := later.check_later held ok
  exact ⟨eq ▸ (Store.check_ok.1 ok).1, eq⟩

/-- Before the first attempt. -/
structure Underway (read : Option (Key × Session)) (v : LoggedView χ) : Prop where
  unsent : firstUpdate v.2 = none
  fetched : fetchedIn v.2 = read
  stored : ∀ k cur, read = some (k, cur) → StoredBefore k cur v.1

/-- Before each attempt: it is the first one, or the Session that was fetched is not the
current one any more. -/
structure Attempting (k : Key) (cur : Session) (v : LoggedView χ) : Prop where
  fetched : fetchedIn v.2 = some (k, cur)
  stored : StoredBefore k cur v.1
  phase : firstUpdate v.2 = none ∨ (firstUpdate v.2 = some v.1 ∧ v.1.sessions.get k ≠ some cur)

section

variable {read : Option (Key × Session)} {k : Key} {cur : Session} {v v' : LoggedView χ}

theorem StoredBefore.later {σ σ' : Cluster χ} (h : StoredBefore k cur σ) (later : Later σ.sessions σ'.sessions) :
    StoredBefore k cur σ' := by
  obtain ⟨σ₀, held, key, ok, before⟩ := h
  exact ⟨σ₀, held, key, ok, before.trans later⟩

theorem Underway.rely (h : Underway read v) (rely : (Raced child).rely v v') : Underway read v' := by
  refine ⟨by rw [rely.1, h.unsent], by rw [rely.1, h.fetched], fun k cur eq => (h.stored k cur eq).later rely.2.1⟩

theorem Underway.reads (h : Underway read v) {c : Call} {a : Answer c} (ans : (Raced child).answer v c a v')
    (reads : c.reads = true) (other : ∀ k, c ≠ .get k) : Underway read v' := by
  have same := answers_reads ans.2.1 reads
  refine ⟨?_, ?_, fun k cur eq => same ▸ h.stored k cur eq⟩
  · rw [ans.1, firstUpdate_snoc, h.unsent, eventFound_of_ne fun s eq => by subst eq; cases reads]
    rfl
  · rw [ans.1, fetchedIn_snoc, h.fetched, eventGot_of_ne other, Option.or_none]

theorem Underway.missing (h : Underway none v) {e : ApiError}
    (ans : (Raced child).answer v (.get k) (.error e) v') : Underway none v' := by
  refine ⟨?_, ?_, fun k cur eq => by cases eq⟩
  · rw [ans.1, firstUpdate_snoc, h.unsent]
    rfl
  · rw [ans.1, fetchedIn_snoc, h.fetched]
    rfl

theorem Underway.got (h : Underway none v) (ans : (Raced child).answer v (.get k) (.ok cur) v') :
    Underway (some (k, cur)) v' := by
  obtain ⟨same, held⟩ := answers_get_ok ans.2.1
  refine ⟨?_, ?_, ?_⟩
  · rw [ans.1, firstUpdate_snoc, h.unsent]
    rfl
  · rw [ans.1, fetchedIn_snoc, h.fetched]
    rfl
  · rintro _ _ ⟨⟩
    rw [same]
    exact ⟨v.1, held, v.1.keyed k _ held, v.1.held k _ held, .refl _⟩

theorem Attempting.rely (h : Attempting k cur v) (rely : (Raced child).rely v v') : Attempting k cur v' := by
  refine ⟨by rw [rely.1, h.fetched], h.stored.later rely.2.1, ?_⟩
  rw [rely.1]
  refine h.phase.imp_right fun ⟨sent, gone⟩ => ?_
  rw [rely.2.2 (by rw [sent]; exact Option.some_ne_none _)]
  exact ⟨sent, gone⟩

/-- A call that is no Update, and then the answer. -/
theorem Underway.last (h : Underway read v) {c : Call} {f : Answer c → Api HttpResp} (other : ∀ s, c ≠ .update s)
    (rest : ∀ a, ∃ resp, f a = .ret resp) {Q : HttpResp → LoggedView χ → Prop}
    (done : ∀ resp v', firstUpdate v'.2 = none → Q resp v') :
    (Prog.call c f).wp (Raced child) (fun _ _ => True) Q v := by
  refine fun v₁ rely => ⟨trivial, fun a v₂ ans => ?_⟩
  obtain ⟨resp, eq⟩ := rest a
  have unsent : firstUpdate v₂.2 = none := by
    rw [ans.1, firstUpdate_snoc, (h.rely rely).unsent, eventFound_of_ne other]
    rfl
  exact eq ▸ fun v₃ rely' => done resp v₃ (by rw [rely'.1, unsent])

/-- A refused attempt leaves everything as it was. -/
theorem Attempting.refused (h : Attempting k cur v) {sent : Session} {e : ApiError} (same : sent.SameObject cur)
    (ans : (Raced child).answer v (.update sent) (.error e) v') :
    Attempting k cur v' ∧ firstUpdate v'.2 = some v'.1 ∧ v'.1.sessions.get k ≠ some cur := by
  have log : firstUpdate v'.2 = (firstUpdate v.2).or (some v.1) := by
    rw [ans.1, firstUpdate_snoc]
    rfl
  have normal := ans.2.2 (by rw [log]; cases firstUpdate v.2 <;> exact Option.some_ne_none _)
  have key : sent.key = k := by
    obtain ⟨σ, -, key, -⟩ := h.stored
    exact same.key.trans key
  have unchanged : v'.1 = v.1 ∧ v.1.sessions.get k ≠ some cur := by
    simp only [answer] at normal
    rcases v.1.replace_cases sent updated with ⟨e', eq⟩ | ⟨found, ok, eq⟩
    · rw [eq] at normal
      refine ⟨congrArg Prod.snd normal, fun held => ?_⟩
      -- a version that is still current is accepted
      have ok := Store.check_current held
      have done : v.1.replace sent updated =
          (.ok (stamp v.1.sessions.next (updated cur sent)), v.1.commit (updated cur sent)) := by
        unfold Cluster.replace
        rw [key, same.version, show v.1.sessions.check k cur.metadata.resourceVersion = .ok cur from ok]
      cases done.symm.trans eq
    · rw [eq] at normal
      cases congrArg Prod.fst normal
  have sent' : firstUpdate v'.2 = some v'.1 := by
    rw [log, unchanged.1]
    rcases h.phase with first | ⟨again, -⟩
    · rw [first]
      rfl
    · rw [again]
      rfl
  have gone : v'.1.sessions.get k ≠ some cur := unchanged.1 ▸ unchanged.2
  refine ⟨⟨?_, unchanged.1 ▸ h.stored, .inr ⟨sent', gone⟩⟩, sent', gone⟩
  rw [ans.1, fetchedIn_snoc, h.fetched]
  rfl

/-- An accepted attempt is the first one, and replaces what was fetched. -/
theorem Attempting.accepted (h : Attempting k cur v) {sent out : Session} (same : sent.SameObject cur)
    (ans : (Raced child).answer v (.update sent) (.ok out) v') :
    fetchedIn v'.2 = some (k, cur) ∧ firstUpdate v'.2 = some v.1 ∧ v.1.sessions.get k = some cur ∧
      v'.1.sessions = v.1.sessions.write k sent := by
  obtain ⟨found, ok, after, -⟩ := answers_update_ok ans.2.1
  obtain ⟨held, rfl⟩ := h.stored.current same ok
  rw [updated_of_same same] at after
  obtain ⟨σ, -, key, kept, -⟩ := h.stored
  refine ⟨?_, ?_, held, ?_⟩
  · rw [ans.1, fetchedIn_snoc, h.fetched]
    rfl
  · rw [ans.1, firstUpdate_snoc, h.phase.resolve_right fun again => again.2 held]
    rfl
  · rw [after, Cluster.commit_held (held_of_same same kept), same.key, key]

end

/-! ## Requests -/

/-- What is shown of a request that has ended. -/
def Raced.Outcome (d : ServerDeps) (route : Route) (r : Request) (resp : HttpResp) (v : LoggedView χ) : Prop :=
  firstUpdate v.2 ≠ none → (OnTop d route r resp v ↔ Unraced v.2)

theorem store_raced {now failure : String} {change : Session → Session} {k : Key} {cur : Session}
    {v : LoggedView χ} (start : Attempting k cur v) (own : transformation d route r now = some (k, change)) :
    (store d (change cur) failure).wp (Raced child) (fun _ _ => True) (Raced.Outcome d route r) v := by
  have same := transformation_same own cur
  refine wp_attempts (I := Attempting k cur) (fun _ _ h rely => h.rely rely) (fun _ _ => trivial)
    (fun _ _ _ h ans _ => (h.refused same ans).1) ?_ ?_ start
  · intro e v₁ v₂ v₃ h ans rely _
    obtain ⟨after, sent, gone⟩ := h.refused same ans
    refine ⟨fun top => absurd top.1 (show ¬ 500 < 300 by decide), ?_⟩
    rintro ⟨k', cur', base, fetched, found, held⟩
    rw [rely.1, after.fetched] at fetched
    rw [rely.1, sent] at found
    cases fetched
    cases found
    exact absurd held gone
  · intro out v₁ v₂ v₃ h ans rely _
    obtain ⟨fetched, sent, held, written⟩ := h.accepted same ans
    have still : v₃.1 = v₂.1 := rely.2.2 (by rw [sent]; exact Option.some_ne_none _)
    refine ⟨fun _ => ⟨k, cur, v₁.1, by rw [rely.1, fetched], by rw [rely.1, sent], held⟩, fun _ => ?_⟩
    exact ⟨show 200 < 300 by decide, now, k, change, v₁.1, cur, own, by rw [rely.1, sent], held,
      by rw [still, written]⟩

theorem Course.raced {read : Option (Key × Session)} {p : Api HttpResp} (course : Course d route r read p)
    {v : LoggedView χ} (underway : Underway read v) :
    p.wp (Raced child) (fun _ _ => True) (Raced.Outcome d route r) v := by
  induction course generalizing v with
  | reply => exact fun v' rely sent => absurd (underway.rely rely).unsent sent
  | ask reads other _ ih =>
    exact fun v₁ rely => ⟨trivial, fun a v₂ ans => ih a ((underway.rely rely).reads ans reads other)⟩
  | fetch _ _ missing found =>
    refine fun v₁ rely => ⟨trivial, fun a v₂ ans => ?_⟩
    cases a with
    | error e => exact missing e ((underway.rely rely).missing ans)
    | ok cur => exact found cur ((underway.rely rely).got ans)
  | store _ _ own _ =>
    exact store_raced ⟨underway.fetched, underway.stored _ _ rfl, .inl underway.unsent⟩ own
  | create _ _ _ _ rest =>
    exact underway.last (fun _ eq => by cases eq) rest fun _ _ unsent sent => absurd unsent sent
  | delete _ _ _ _ rest =>
    exact underway.last (fun _ eq => by cases eq) rest fun _ _ unsent sent => absurd unsent sent

/-- **Main result.** Others write while a request is under way, but not after its first Update,
and no call fails from then on. A request that gets as far as that Update succeeds, on top of
what the others have written, exactly if they have not written its Session since the Get. -/
theorem conflict_retries_iff {σ : Cluster χ} {resp : HttpResp} {v : LoggedView χ}
    (run : Exec (Raced child) (serve d route r) (σ, []) (.ret resp) v) (sent : firstUpdate v.2 ≠ none) :
    OnTop d route r resp v ↔ Unraced v.2 :=
  Prog.wp_result run (serve_course.raced ⟨rfl, rfl, fun _ _ eq => by cases eq⟩) sent

theorem raced_answers (v : LoggedView χ) (c : Call) : (Raced child).answer v c
    (Setting.recorded (answer child) v c).1 (Setting.recorded (answer child) v c).2 :=
  ⟨rfl, answers_answer child v.1 c, fun _ => rfl⟩

/-- A scale request that nobody comes between. -/
theorem conflict_retries_alone : ∃ (resp : HttpResp) (v : LoggedView Manifest),
    Exec (Raced replaceApi) (serve (.plain "i" false) .session scaleRequest)
      (.single scaleOnly (sessionOf "i"), []) (.ret resp) v ∧
    (OnTop (.plain "i" false) .session scaleRequest resp v ↔ Unraced v.2) := by
  have run := Exec.of_run (W := Raced replaceApi) raced_answers
    (serve (.plain "i" false) .session scaleRequest) (.single scaleOnly (sessionOf "i"), [])
  have sent : (firstUpdate ((serve (.plain "i" false) .session scaleRequest).run
      (Setting.recorded (answer replaceApi)) (.single scaleOnly (sessionOf "i"), [])).2.2).isSome = true := by
    decide +kernel
  exact ⟨_, _, run, conflict_retries_iff run fun none => by rw [none] at sent; cases sent⟩

/-- A change that others make to the Session: its replicas. -/
def otherWrite : Session := scaled 5 (sessionOf "i")

/-- Somebody scales the Session between the Get and the first Update of a scale request. All
five attempts of the request are refused. -/
theorem conflict_exhausts : ∃ (resp : HttpResp) (v : LoggedView Manifest),
    Exec (Raced replaceApi) (serve (.plain "i" false) .session scaleRequest)
      (.single scaleOnly (sessionOf "i"), []) (.ret resp) v ∧
    firstUpdate v.2 = some ((Cluster.single scaleOnly (sessionOf "i")).commit otherWrite) ∧
    ¬ OnTop (.plain "i" false) .session scaleRequest resp v := by
  let σ : Cluster Manifest := .single scaleOnly (sessionOf "i")
  let p := serve (.plain "i" false) .session scaleRequest
  let step := Setting.recorded (answer replaceApi)
  have fetched := Exec.of_advance (W := Raced replaceApi) raced_answers 2 p (σ, [])
  let rest := (p.advance step 2 (σ, [])).1
  let l := (p.advance step 2 (σ, [])).2.2
  have unsent : firstUpdate l = none := Option.isNone_iff_eq_none.1 (by decide +kernel)
  have written : (Raced replaceApi).rely (p.advance step 2 (σ, [])).2 (σ.commit otherWrite, l) :=
    ⟨rfl, Cluster.commit_later _, fun sent => absurd unsent sent⟩
  have refused := Exec.of_run (W := Raced replaceApi) raced_answers rest (σ.commit otherWrite, l)
  have status : (rest.run step (σ.commit otherWrite, l)).1.status = 500 := by decide +kernel
  refine ⟨_, _, fetched.trans (.other written refused), by rfl, fun top => ?_⟩
  have success := top.1
  rw [status] at success
  exact absurd success (by decide)

end Codespace.Server
