import Codespace.Api.Server

/-!
# What each answer says

One lemma per call about `Answers`: which answers are possible and what they do to the
cluster. Later modules use these and never unfold `answer`.
-/

namespace Codespace
set_option autoImplicit false
open Versioned Interact

variable {χ : Type} {child : ChildApi χ} {σ σ' : Cluster χ}

/-! ## Commits -/

namespace Cluster

theorem commit_held {s : Session} (held : s.Held) :
    (σ.commit s).sessions = σ.sessions.write s.key s := by
  simp only [commit, held, dite_true, put]

theorem commit_not_held {s : Session} (gone : ¬ s.Held) :
    (σ.commit s).sessions = σ.sessions.erase s.key := by
  simp only [commit, gone, dite_false, drop]

@[simp] theorem commit_children (s : Session) : (σ.commit s).children = σ.children := by
  unfold commit; split <;> rfl

@[simp] theorem commit_readyReplicas (s : Session) :
    (σ.commit s).readyReplicas = σ.readyReplicas := by
  unfold commit; split <;> rfl

@[simp] theorem commit_index (s : Session) : (σ.commit s).index = σ.index := by
  unfold commit; split <;> rfl

@[simp] theorem commit_nextUid (s : Session) : (σ.commit s).nextUid = σ.nextUid := by
  unfold commit; split <;> rfl

@[simp] theorem commit_policy (s : Session) : (σ.commit s).policy = σ.policy := by
  unfold commit; split <;> rfl

@[simp] theorem commit_clock (s : Session) : (σ.commit s).clock = σ.clock := by
  unfold commit; split <;> rfl

theorem commit_later (s : Session) : Later σ.sessions (σ.commit s).sessions := by
  by_cases held : s.Held
  · rw [commit_held held]; exact .write _ _ _
  · rw [commit_not_held held]; exact .erase _ _

/-- A commit touches one key. -/
theorem commit_get_ne {s : Session} {k : Key} (ne : k ≠ s.key) :
    (σ.commit s).sessions.get k = σ.sessions.get k := by
  by_cases held : s.Held
  · rw [commit_held held, Store.get_write_ne _ _ ne]
  · rw [commit_not_held held, Store.get_erase_ne _ ne]

/-- What the key of a commit holds afterwards. -/
theorem commit_get_self (σ : Cluster χ) (s : Session) :
    (s.Held ∧ (σ.commit s).sessions.get s.key = some (stamp σ.sessions.next s)) ∨
      (¬ s.Held ∧ (σ.commit s).sessions.get s.key = none) := by
  by_cases held : s.Held
  · exact .inl ⟨held, by rw [commit_held held, Store.get_write_self]⟩
  · exact .inr ⟨held, by rw [commit_not_held held, Store.get_erase_self]⟩

/-- The cases of a conditional write. -/
theorem replace_cases (σ : Cluster χ) (sent : Session) (merge : Session → Session → Session) :
    (∃ e, σ.replace sent merge = (.error e, σ)) ∨
      ∃ cur, σ.sessions.check sent.key sent.metadata.resourceVersion = .ok cur ∧
        σ.replace sent merge =
          (.ok (stamp σ.sessions.next (merge cur sent)), σ.commit (merge cur sent)) := by
  unfold replace
  cases σ.sessions.check sent.key sent.metadata.resourceVersion with
  | error e => cases e <;> exact .inl ⟨_, rfl⟩
  | ok cur => exact .inr ⟨cur, rfl, rfl⟩

end Cluster

/-- Where a commit was made, a key holds what it held, or what was committed. -/
theorem commit_cases {σ : Cluster χ} {new s : Session} {k : Key}
    (held : (σ.commit new).sessions.get k = some s) :
    σ.sessions.get k = some s ∨ k = new.key ∧ s = stamp σ.sessions.next new := by
  by_cases here : k = new.key
  · subst here
    rcases Cluster.commit_get_self σ new with ⟨-, now⟩ | ⟨-, now⟩
    · rw [now] at held
      cases held
      exact .inr ⟨rfl, rfl⟩
    · rw [now] at held
      cases held
  · rw [Cluster.commit_get_ne here] at held
    exact .inl held

/-! ## The calls -/

/-- No call changes the policy. -/
theorem answer_policy (child : ChildApi χ) (σ : Cluster χ) (c : Call) :
    (answer child σ c).2.policy = σ.policy := by
  have replace : ∀ sent merge, (σ.replace sent merge).2.policy = σ.policy := by
    intro sent merge
    rcases σ.replace_cases sent merge with ⟨e, eq⟩ | ⟨cur, -, eq⟩
    · rw [eq]
    · rw [eq, Cluster.commit_policy]
  cases c with
  | create s =>
    simp only [answer]
    split
    · rfl
    · exact Cluster.commit_policy _
  | update s => exact replace s updated
  | updateStatus s => exact replace s statusUpdated
  | delete k =>
    simp only [answer, Cluster.delete]
    split
    · rfl
    split
    · rfl
    split
    · rfl
    · exact Cluster.commit_policy _
  | apply owner m =>
    simp only [answer]
    split <;> rfl
  | _ => rfl

/-- Only an Apply changes children. -/
theorem answer_children {c : Call} (other : ∀ o m, c ≠ .apply o m) :
    (answer child σ c).2.children = σ.children := by
  have replace : ∀ sent merge, (σ.replace sent merge).2.children = σ.children := by
    intro sent merge
    rcases σ.replace_cases sent merge with ⟨e, eq⟩ | ⟨cur, -, eq⟩
    · rw [eq]
    · rw [eq, Cluster.commit_children]
  cases c with
  | create s =>
    simp only [answer]
    split
    · rfl
    · exact Cluster.commit_children _
  | update s => exact replace s updated
  | updateStatus s => exact replace s statusUpdated
  | delete k =>
    simp only [answer, Cluster.delete]
    split
    · rfl
    split
    · rfl
    split
    · rfl
    · exact Cluster.commit_children _
  | apply o m => exact absurd rfl (other o m)
  | _ => rfl

/-- A call does what it does, or nothing. -/
theorem answers_state {c : Call} {a : Answer c} (ans : Answers child σ c a σ') :
    σ' = σ ∨ σ' = (answer child σ c).2 := by
  rcases ans with normal | ⟨m, -, state⟩
  · exact .inr (congrArg Prod.snd normal)
  · exact state

/-- A call whose normal answer leaves the cluster alone: it is answered so, or it fails. -/
theorem answers_lookup {c : Call} {r : Answer c} (h : Answers child σ c r σ') (still : (answer child σ c).2 = σ) :
    σ' = σ ∧ (r = (answer child σ c).1 ∨ ∃ m, c.failed m = some r) := by
  rcases h with normal | ⟨m, failed, same | done⟩
  · exact ⟨(congrArg Prod.snd normal).trans still, .inl (congrArg Prod.fst normal)⟩
  · exact ⟨same, .inr ⟨m, failed⟩⟩
  · exact ⟨done.trans still, .inr ⟨m, failed⟩⟩

theorem answers_get {k : Key} {r : Answer (.get k)} (h : Answers child σ (.get k) r σ') :
    σ' = σ ∧ ((∃ s, σ.sessions.get k = some s ∧ r = .ok s) ∨
      ∃ e, r = .error e ∧ (e.isNotFound = true → σ.sessions.get k = none)) := by
  obtain ⟨same, normal | ⟨m, failed⟩⟩ := answers_lookup h rfl
  · subst normal
    refine ⟨same, ?_⟩
    simp only [answer]
    cases held : σ.sessions.get k with
    | none => exact .inr ⟨_, rfl, fun _ => rfl⟩
    | some s => exact .inl ⟨s, rfl, rfl⟩
  · cases failed
    exact ⟨same, .inr ⟨_, rfl, fun missing => by simp [ApiError.isNotFound] at missing⟩⟩

/-- A Get that answers with a Session found it. -/
theorem answers_get_ok {k : Key} {s : Session} (h : Answers child σ (.get k) (.ok s) σ') :
    σ' = σ ∧ σ.sessions.get k = some s := by
  obtain ⟨same, ⟨found, held, eq⟩ | ⟨e, eq, -⟩⟩ := answers_get h
  · cases eq
    exact ⟨same, held⟩
  · cases eq

theorem answers_get_held {k : Key} {s held : Session} (h : Answers child σ (.get k) (.ok s) σ')
    (stored : σ.sessions.get k = some held) : σ' = σ ∧ s = held := by
  obtain ⟨same, found⟩ := answers_get_ok h
  exact ⟨same, Option.some.inj (found.symm.trans stored)⟩

/-- A conditional write either leaves the cluster alone and reports an error, or commits. An
error that comes with a commit is a lost answer, not a Conflict. -/
theorem answers_replace {sent : Session} {merge : Session → Session → Session}
    {r : Except ApiError Session}
    (h : (r, σ') = σ.replace sent merge ∨
      ∃ m, some (.error ⟨.other, m⟩) = some r ∧ (σ' = σ ∨ σ' = (σ.replace sent merge).2)) :
    (σ' = σ ∧ ∃ e, r = .error e) ∨
      ∃ cur, σ.sessions.check sent.key sent.metadata.resourceVersion = .ok cur ∧
        σ' = σ.commit (merge cur sent) ∧
        (r = .ok (stamp σ.sessions.next (merge cur sent)) ∨ ∃ m, r = .error ⟨.other, m⟩) := by
  rcases Cluster.replace_cases σ sent merge with ⟨e, refused⟩ | ⟨cur, ok, done⟩
  · rw [refused] at h
    rcases h with normal | ⟨m, failed, state⟩
    · simp only [Prod.mk.injEq] at normal
      exact .inl ⟨normal.2, e, normal.1⟩
    · cases failed
      exact .inl ⟨by rcases state with e | e <;> exact e, _, rfl⟩
  · rw [done] at h
    rcases h with normal | ⟨m, failed, state⟩
    · simp only [Prod.mk.injEq] at normal
      exact .inr ⟨cur, ok, normal.2, .inl normal.1⟩
    · cases failed
      rcases state with e | e
      · exact .inl ⟨e, _, rfl⟩
      · exact .inr ⟨cur, ok, e, .inr ⟨m, rfl⟩⟩

theorem answers_update {sent : Session} {r : Answer (.update sent)}
    (h : Answers child σ (.update sent) r σ') :
    (σ' = σ ∧ ∃ e, r = .error e) ∨
      ∃ cur, σ.sessions.check sent.key sent.metadata.resourceVersion = .ok cur ∧
        σ' = σ.commit (updated cur sent) ∧
        (r = .ok (stamp σ.sessions.next (updated cur sent)) ∨ ∃ m, r = .error ⟨.other, m⟩) :=
  answers_replace h

/-- An Update that succeeds is committed. -/
theorem answers_update_ok {sent out : Session} (h : Answers child σ (.update sent) (.ok out) σ') :
    ∃ cur, σ.sessions.check sent.key sent.metadata.resourceVersion = .ok cur ∧
      σ' = σ.commit (updated cur sent) ∧ out = stamp σ.sessions.next (updated cur sent) := by
  rcases answers_update h with ⟨-, e, eq⟩ | ⟨cur, ok, after, eq | ⟨m, eq⟩⟩
  · cases eq
  · exact ⟨cur, ok, after, Except.ok.inj eq⟩
  · cases eq

/-- A Conflict leaves the cluster alone. -/
theorem answers_update_conflict {sent : Session} {e : ApiError} (h : Answers child σ (.update sent) (.error e) σ')
    (conflict : e.isConflict = true) : σ' = σ := by
  rcases answers_update h with ⟨same, -⟩ | ⟨cur, -, -, eq | ⟨m, eq⟩⟩
  · exact same
  · cases eq
  · cases eq
    cases conflict

/-- A Delete changes one key. -/
theorem answers_delete {k k' : Key} {r : Answer (.delete k)} (h : Answers child σ (.delete k) r σ')
    (ne : k' ≠ k) : σ'.sessions.get k' = σ.sessions.get k' := by
  have normal : (σ.delete k).2.sessions.get k' = σ.sessions.get k' := by
    unfold Cluster.delete
    split
    · rfl
    rename_i cur held
    split
    · exact Store.get_erase_ne _ ne
    split
    · rfl
    · exact Cluster.commit_get_ne (σ.keyed k cur held ▸ ne)
  rcases h with eq | ⟨m, -, same | eq⟩
  · rw [← normal]
    exact congrArg (fun x => x.2.sessions.get k') eq
  · rw [same]
  · rw [eq]
    exact normal

theorem answers_updateStatus {sent : Session} {r : Answer (.updateStatus sent)}
    (h : Answers child σ (.updateStatus sent) r σ') :
    (σ' = σ ∧ ∃ e, r = .error e) ∨
      ∃ cur, σ.sessions.check sent.key sent.metadata.resourceVersion = .ok cur ∧
        σ' = σ.commit (statusUpdated cur sent) ∧
        (r = .ok (stamp σ.sessions.next (statusUpdated cur sent)) ∨ ∃ m, r = .error ⟨.other, m⟩) :=
  answers_replace h

/-- An Apply changes at most its own child. -/
theorem answers_apply {owner : String} {m : Manifest} {r : Answer (.apply owner m)}
    (h : Answers child σ (.apply owner m) r σ') :
    (σ' = σ ∧ ∃ e, r = .error e) ∨
      ∃ c, child.apply owner (σ.children.lookup m.key) m = .ok c ∧
        σ' = { σ with children := σ.children.insert m.key c } := by
  have cases : (∃ e, answer child σ (.apply owner m) = (.error e, σ)) ∨
      ∃ c, child.apply owner (σ.children.lookup m.key) m = .ok c ∧
        answer child σ (.apply owner m) =
          (.ok (), { σ with children := σ.children.insert m.key c }) := by
    simp only [answer]
    cases child.apply owner (σ.children.lookup m.key) m with
    | error e => exact .inl ⟨e, rfl⟩
    | ok c => exact .inr ⟨c, rfl, rfl⟩
  rcases cases with ⟨e, refused⟩ | ⟨c, ok, done⟩
  · rcases h with normal | ⟨msg, failed, state⟩
    · rw [refused, Prod.mk.injEq] at normal
      exact .inl ⟨normal.2, e, normal.1⟩
    · rw [refused] at state
      simp only [Call.failed, Option.some.injEq] at failed
      subst failed
      exact .inl ⟨by rcases state with e | e <;> exact e, _, rfl⟩
  · rcases h with normal | ⟨msg, failed, state⟩
    · rw [done, Prod.mk.injEq] at normal
      exact .inr ⟨c, ok, normal.2⟩
    · rw [done] at state
      simp only [Call.failed, Option.some.injEq] at failed
      subst failed
      rcases state with e | e
      · exact .inl ⟨e, _, rfl⟩
      · exact .inr ⟨c, ok, e⟩

/-- A rejection is the API server's own, and changes nothing. -/
theorem answers_apply_conflict {owner : String} {m : Manifest} {e : ApiError}
    (h : Answers child σ (.apply owner m) (.error e) σ') (conflict : e.isConflict = true) :
    σ' = σ ∧ child.apply owner (σ.children.lookup m.key) m = .error e := by
  rcases h with normal | ⟨msg, failed, -⟩
  · simp only [answer] at normal
    split at normal
    · rename_i e' refused
      cases normal
      exact ⟨rfl, refused⟩
    · cases normal
  · simp only [Call.failed, Option.some.injEq] at failed
    cases failed
    cases conflict

theorem answers_getDeployment {k : Key} {r : Answer (.getDeployment k)}
    (h : Answers child σ (.getDeployment k) r σ') :
    σ' = σ ∧ ∀ d, r = .ok d → d = ⟨k.name, k.ns, σ.readyReplicas k⟩ := by
  obtain ⟨same, normal | ⟨m, failed⟩⟩ := answers_lookup h rfl
  · refine ⟨same, fun d ok => ?_⟩
    simp only [answer, ok] at normal
    split at normal
    · cases normal
    · cases normal
      rfl
  · cases failed
    exact ⟨same, nofun⟩

theorem answers_getService {k : Key} {r : Answer (.getService k)}
    (h : Answers child σ (.getService k) r σ') :
    σ' = σ ∧ ∀ svc, r = .ok svc → svc = ⟨k.name, k.ns⟩ := by
  obtain ⟨same, normal | ⟨m, failed⟩⟩ := answers_lookup h rfl
  · refine ⟨same, fun svc ok => ?_⟩
    simp only [answer, ok] at normal
    split at normal
    · cases normal
    · cases normal
      rfl
  · cases failed
    exact ⟨same, nofun⟩

/-! ## What a call can do to the Sessions -/

/-- The calls that only read. -/
def Call.reads : Call → Bool
  | .get _ | .list _ _ | .getDeployment _ | .getService _ | .buildInstanceMetaIndex _
  | .enforce _ _ _ _ _ | .now => true
  | _ => false

theorem answers_reads {c : Call} {r : Answer c} (h : Answers child σ c r σ') (reads : c.reads = true) :
    σ' = σ := by
  have still : (answer child σ c).2 = σ := by
    cases c <;> first | rfl | cases reads
  exact (answers_lookup h still).1

/-- Every call writes or erases Sessions, if it does anything to them. -/
theorem answer_later (child : ChildApi χ) (σ : Cluster χ) (c : Call) :
    Later σ.sessions (answer child σ c).2.sessions := by
  have replace : ∀ sent merge, Later σ.sessions (σ.replace sent merge).2.sessions := by
    intro sent merge
    rcases σ.replace_cases sent merge with ⟨e, eq⟩ | ⟨cur, -, eq⟩
    · rw [eq]
      exact .refl _
    · rw [eq]
      exact σ.commit_later _
  cases c with
  | create s =>
    simp only [answer]
    split
    · exact .refl _
    · exact σ.commit_later _
  | update s => exact replace s updated
  | updateStatus s => exact replace s statusUpdated
  | delete k =>
    simp only [answer, Cluster.delete]
    split
    · exact .refl _
    split
    · exact .erase _ _
    split
    · exact .refl _
    · exact σ.commit_later _
  | apply owner m =>
    simp only [answer]
    split <;> exact .refl _
  | _ => exact .refl _

theorem answers_later {c : Call} {r : Answer c} (h : Answers child σ c r σ') :
    Later σ.sessions σ'.sessions := by
  rcases h with normal | ⟨m, -, same | eq⟩
  · have after : σ' = (answer child σ c).2 := congrArg Prod.snd normal
    rw [after]
    exact answer_later child σ c
  · rw [same]
    exact .refl _
  · rw [eq]
    exact answer_later child σ c

/-- The Session that a call may write. -/
def Call.writes : Call → Option Key
  | .create s | .update s | .updateStatus s => some s.key
  | .delete k => some k
  | _ => none

/-- Every other Session stays as it is. -/
theorem answer_elsewhere (child : ChildApi χ) (σ : Cluster χ) {c : Call} {k : Key} (other : c.writes ≠ some k) :
    (answer child σ c).2.sessions.get k = σ.sessions.get k := by
  have replace : ∀ {sent : Session} {merge}, (∀ cur, cur.key = sent.key → (merge cur sent).key = sent.key) →
      some sent.key ≠ some k → (σ.replace sent merge).2.sessions.get k = σ.sessions.get k := by
    intro sent merge key ne
    rcases σ.replace_cases sent merge with ⟨e, eq⟩ | ⟨cur, ok, eq⟩
    · rw [eq]
    · rw [eq]
      have same := key cur (σ.keyed _ cur (Store.check_ok.1 ok).1)
      exact Cluster.commit_get_ne fun here => ne (by rw [here, same])
  cases c with
  | create s =>
    simp only [answer]
    split
    · rfl
    · exact Cluster.commit_get_ne fun here => other (congrArg some here.symm)
  | update s => exact replace (fun _ _ => rfl) other
  | updateStatus s => exact replace (fun _ same => same) other
  | delete k' => exact answers_delete (answers_answer child σ (.delete k')) fun here => other (congrArg some here.symm)
  | apply owner m =>
    simp only [answer]
    split <;> rfl
  | _ => rfl

theorem answers_elsewhere {c : Call} {r : Answer c} (h : Answers child σ c r σ') {k : Key}
    (other : c.writes ≠ some k) : σ'.sessions.get k = σ.sessions.get k := by
  rcases h with normal | ⟨m, -, same | eq⟩
  · have after : σ' = (answer child σ c).2 := congrArg Prod.snd normal
    rw [after, answer_elsewhere child σ other]
  · rw [same]
  · rw [eq, answer_elsewhere child σ other]

/-- An Update of a Session that is otherwise as it is stored. -/
theorem updated_of_same {cur sent : Session} (same : sent.SameObject cur) : updated cur sent = sent := by
  unfold updated
  rw [← same.uid, ← same.deletion, ← same.status]

theorem held_of_same {cur sent : Session} (same : sent.SameObject cur) (held : cur.Held) : sent.Held := by
  intro deleting
  rw [same.finalizers]
  refine held ?_
  rw [← deleting]
  exact congrArg Option.isSome same.deletion.symm

/-- What a commit stores in place of the same object. -/
theorem commit_get_same {σ : Cluster χ} {k : Key} {cur sent : Session} (stored : σ.sessions.get k = some cur)
    (same : sent.SameObject cur) : (σ.commit sent).sessions.get k = some (stamp σ.sessions.next sent) := by
  have key : k = sent.key := by rw [same.key, σ.keyed k cur stored]
  rw [Cluster.commit_held (held_of_same same (σ.held k cur stored)), key]
  exact Store.get_write_self ..

/-! ## UIDs -/

/-- The next UID was handed out or none was, and every object has the UID it had. -/
def UidsKept (σ τ : Cluster χ) : Prop :=
  σ.nextUid ≤ τ.nextUid ∧ ∀ k s, τ.sessions.get k = some s →
    (∃ cur, σ.sessions.get k = some cur ∧ cur.metadata.uid = s.metadata.uid) ∨
      s.metadata.uid = σ.nextUid ∧ σ.nextUid < τ.nextUid

theorem UidsKept.refl (σ : Cluster χ) : UidsKept σ σ := ⟨Nat.le_refl _, fun _ s held => .inl ⟨s, held, rfl⟩⟩

theorem UidsKept.commit {cur new : Session} (stored : σ.sessions.get new.key = some cur)
    (uid : new.metadata.uid = cur.metadata.uid) : UidsKept σ (σ.commit new) := by
  refine ⟨Nat.le_of_eq (Cluster.commit_nextUid new).symm, fun k s held => .inl ?_⟩
  rcases commit_cases held with before | ⟨rfl, rfl⟩
  · exact ⟨s, before, rfl⟩
  · exact ⟨cur, stored, uid.symm⟩

theorem UidsKept.replace (sent : Session) (merge : Session → Session → Session)
    (uid : ∀ cur, (merge cur sent).metadata.uid = cur.metadata.uid)
    (key : ∀ cur, cur.key = sent.key → (merge cur sent).key = sent.key) : UidsKept σ (σ.replace sent merge).2 := by
  rcases σ.replace_cases sent merge with ⟨e, eq⟩ | ⟨cur, ok, eq⟩
  · rw [eq]
    exact .refl σ
  · rw [eq]
    have stored := (Store.check_ok.1 ok).1
    exact .commit (by rwa [key cur (σ.keyed _ _ stored)]) (uid cur)

theorem UidsKept.delete (k : Key) : UidsKept σ (σ.delete k).2 := by
  unfold Cluster.delete
  split
  · exact .refl σ
  rename_i cur stored
  split
  · refine ⟨Nat.le_refl _, fun k' s held => .inl ⟨s, ?_, rfl⟩⟩
    by_cases same : k' = k
    · subst same
      simp [Cluster.drop] at held
    · rwa [Cluster.drop, Store.get_erase_ne _ same] at held
  split
  · exact .refl σ
  · have same : cur.key = k := σ.keyed k cur stored
    have held : σ.sessions.get cur.key = some cur := same.symm ▸ stored
    exact .commit held rfl

/-- A call hands out the next UID or none, and an object keeps the UID it got. -/
theorem answer_uids (child : ChildApi χ) (σ : Cluster χ) (c : Call) : UidsKept σ (answer child σ c).2 := by
  cases c with
  | create s =>
    simp only [answer]
    cases free : σ.sessions.get s.key with
    | some found => exact .refl σ
    | none =>
      refine ⟨Nat.le_succ _, fun k s' held => ?_⟩
      rcases commit_cases held with before | ⟨-, rfl⟩
      · exact .inl ⟨s', before, rfl⟩
      · exact .inr ⟨rfl, Nat.lt_succ_self _⟩
  | update s => exact .replace s updated (fun _ => rfl) fun _ _ => rfl
  | updateStatus s => exact .replace s statusUpdated (fun _ => rfl) fun _ key => key
  | delete k => exact .delete k
  | apply owner m =>
    simp only [answer]
    split <;> exact .refl σ
  | _ => exact .refl σ

end Codespace
