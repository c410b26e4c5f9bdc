import Codespace.Server.InstanceID

/-!
# Servers that start together

The replicas of a server start at the same time, and each looks for the ConfigMap with the id,
and may create it. They agree: whatever the order of their calls, and however many crash or
start again, all that go on do so with one id. It is on record, unless there was a ConfigMap
without an id to begin with (`starts_agree`).
-/

namespace Codespace.Server
set_option autoImplicit false
open Interact

variable {e : Installation} {cms cms' : ConfigMaps}

/-- The id that a server will go on with. -/
def agreed (e : Installation) (cms : ConfigMaps) : String :=
  match cms.lookup e.key with
  | none => e.id
  | some cm => if cm.data.index "id" = "" then e.id else cm.data.index "id"

/-- There is a ConfigMap. -/
def Occupied (e : Installation) (cms : ConfigMaps) : Prop := cms.lookup e.key ≠ none

/-- Its ConfigMap has no id. -/
def Blank (e : Installation) (cms : ConfigMaps) : Prop := Recorded cms e.key ""

/-- The ConfigMap has stayed as it is, or has been created with the id. -/
def Toward (e : Installation) (cms cms' : ConfigMaps) : Prop :=
  cms'.lookup e.key = cms.lookup e.key ∨ cms.lookup e.key = none ∧ Recorded cms' e.key e.id

theorem Toward.trans {cms₁ cms₂ cms₃ : ConfigMaps} (first : Toward e cms₁ cms₂) (second : Toward e cms₂ cms₃) :
    Toward e cms₁ cms₃ := by
  rcases second with same | ⟨free, created⟩
  · rcases first with same' | ⟨free, cm, held, id⟩
    · exact .inl (same.trans same')
    · exact .inr ⟨free, cm, same.trans held, id⟩
  · rcases first with same' | ⟨-, cm, held, -⟩
    · exact .inr ⟨same'.symm.trans free, created⟩
    · cases free.symm.trans held

theorem agreed_recorded (recorded : Recorded cms e.key e.id) : agreed e cms = e.id := by
  obtain ⟨cm, held, id⟩ := recorded
  simp [agreed, held, id]

theorem Toward.agreed (toward : Toward e cms cms') : agreed e cms' = agreed e cms := by
  rcases toward with same | ⟨free, created⟩
  · simp only [Server.agreed, same]
  · rw [agreed_recorded created]
    simp [Server.agreed, free]

theorem Toward.occupied (toward : Toward e cms cms') (occupied : Occupied e cms) : Occupied e cms' := by
  rcases toward with same | ⟨free, -⟩
  · rwa [Occupied, same]
  · exact absurd free occupied

/-- What is agreed on is on record once there is a ConfigMap, unless that has no id. -/
theorem Occupied.recorded (occupied : Occupied e cms) : Recorded cms e.key (agreed e cms) ∨ Blank e cms := by
  obtain ⟨cm, held⟩ := Option.ne_none_iff_exists'.1 occupied
  by_cases blank : cm.data.index "id" = ""
  · exact .inr ⟨cm, held, blank⟩
  · exact .inl ⟨cm, held, by simp [agreed, held, blank]⟩

/-- A ConfigMap without an id was there before, or nobody has an id. -/
theorem Toward.blank (toward : Toward e cms cms') (blank : Blank e cms') :
    Recorded cms' e.key (Server.agreed e cms') ∨ Blank e cms := by
  obtain ⟨cm, held, id⟩ := blank
  rcases toward with same | ⟨-, cm', held', id'⟩
  · exact .inr ⟨cm, same.symm.trans held, id⟩
  · cases held.symm.trans held'
    exact .inl ⟨cm, held, by simp [Server.agreed, held, id, ← id']⟩

/-! ## One server among the others -/

/-- A server whose ConfigMap is written by such servers only. -/
def Beside (e : Installation) : Setting ConfigMapCall ConfigMapAnswer ConfigMaps where
  answer := Contended.answer
  rely := Toward e
  rely_refl := fun _ => .inl rfl
  rely_trans := Toward.trans

/-- A server creates no ConfigMap at the key but one with the id. -/
def Creates (e : Installation) : ConfigMapCall → Prop
  | .get _ => True
  | .create cm => cm.key = e.key → cm.data.index "id" = e.id

/-- Any such call keeps what is agreed on. -/
theorem Creates.toward {c : ConfigMapCall} {a : ConfigMapAnswer c} (creates : Creates e c)
    (ans : Contended.answer cms c a cms') : Toward e cms cms' := by
  have normal : Toward e cms (answerConfigMap cms c).2 := by
    cases c with
    | get k =>
      simp only [answerConfigMap]
      split <;> exact .inl rfl
    | create cm =>
      simp only [answerConfigMap]
      split
      · exact .inl rfl
      · rename_i free
        by_cases here : cm.key = e.key
        · exact .inr ⟨here ▸ free, cm, here ▸ Finmap.lookup_insert _, creates here⟩
        · exact .inl (Finmap.lookup_insert_of_ne _ (Ne.symm here))
  rcases ans with eq | ⟨m, -, same | eq⟩
  · exact (Prod.mk.inj eq).2 ▸ normal
  · exact .inl (congrArg _ same)
  · exact eq ▸ normal

/-- A server that goes on does so with the id agreed on, and has seen a ConfigMap. -/
def GoesOn (e : Installation) (res : InstallationResult) (cms : ConfigMaps) : Prop :=
  res.2.2 = none → res.2.1 = agreed e cms ∧ Occupied e cms

theorem GoesOn.toward {res : InstallationResult} (h : GoesOn e res cms) (toward : Toward e cms cms') :
    GoesOn e res cms' := fun success =>
  ⟨(h success).1.trans toward.agreed.symm, toward.occupied (h success).2⟩

/-- The part from the Create on, where the id has been agreed on. -/
theorem createIndexCM_goesOn (free : agreed e cms = e.id) :
    (createIndexCM e).wp (Beside e) (fun _ => Creates e) (GoesOn e) cms := by
  have creates : Creates e (.create e.indexCM) := fun _ => e.indexCM_id
  refine Prog.wp_perform fun cms₁ toward => ⟨creates, fun r cms₂ ans => ?_⟩
  have done : (∀ err, r = .error err → err.isAlreadyExists = true) → GoesOn e (e.anchor, e.id, none) cms₂ := by
    intro success _
    have same : agreed e cms₂ = e.id := ((creates.toward ans).agreed.trans toward.agreed).trans free
    refine ⟨same.symm, ?_⟩
    rcases contended_create ans success with ⟨rfl, found, held⟩ | ⟨-, rfl⟩
    · rw [e.indexCM_key] at held
      simp [Occupied, held]
    · simp [Occupied]
  rcases r with err | _
  · show (if !err.isAlreadyExists then Prog.ret (e.anchor, "", some err)
      else .ret (e.anchor, e.id, none) : ConfigMapApi InstallationResult).wp _ _ _ cms₂
    cases exists_ : err.isAlreadyExists with
    | false => exact fun _ _ failed => by cases failed
    | true =>
      have success : ∀ err', (Except.error err : ConfigMapAnswer (.create e.indexCM)) = .error err' →
          err'.isAlreadyExists = true := by
        rintro _ ⟨⟩
        exact exists_
      exact fun cms₃ later => (done success).toward later
  · exact fun cms₃ later => (done nofun).toward later

theorem ensureInstallationID_goesOn (cms : ConfigMaps) :
    (ensureInstallationID e).wp (Beside e) (fun _ => Creates e) (GoesOn e) cms := by
  refine Prog.wp_perform fun cms₁ _ => ⟨trivial, fun r cms₂ ans => ?_⟩
  rcases contended_get ans with ⟨rfl, cm, held, rfl⟩ | ⟨err, rfl, absent⟩
  · show (if cm.data.index "id" ≠ "" then Prog.ret (e.anchor, cm.data.index "id", none)
      else createIndexCM e).wp _ _ _ cms₂
    split
    · rename_i found
      have here : GoesOn e (e.anchor, cm.data.index "id", none) cms₂ :=
        fun _ => ⟨by simp [agreed, held, found], by simp [Occupied, held]⟩
      exact fun cms₃ later => here.toward later
    · rename_i empty
      exact createIndexCM_goesOn (by simp [agreed, held, not_not.1 empty])
  · have same := (show Creates e (.get e.key) from trivial).toward ans |>.agreed
    show (if !err.isNotFound then Prog.ret (e.anchor, "", some err) else createIndexCM e).wp _ _ _ cms₂
    cases missing : err.isNotFound with
    | false => exact fun _ _ failed => by cases failed
    | true => exact createIndexCM_goesOn (same.trans (by simp [agreed, absent missing]))

/-! ## All of them -/

/-- A server of the same installation, or one that looks elsewhere. -/
def Akin (e e' : Installation) : Prop := e'.key = e.key → e'.id = e.id

/-- Any number of servers start, while others write any other ConfigMaps. -/
def starts (e : Installation) :
    Pool.Machine {e' // Akin e e'} ConfigMapCall ConfigMapAnswer InstallationResult ConfigMaps where
  code := fun e' => ensureInstallationID e'
  answer := Contended.answer
  drift := fun cms cms' => cms'.lookup e.key = cms.lookup e.key

abbrev Servers (e : Installation) :=
  Pool {e' // Akin e e'} ConfigMapCall ConfigMapAnswer InstallationResult ConfigMaps

theorem starts_answers (e : Installation) : Pool.Answers (starts e) fun _ => (Beside e).logged :=
  fun _ _ _ _ _ _ ans => Setting.logged_answer ans

section

variable {e' : Installation}

theorem Akin.only (akin : Akin e e') : (ensureInstallationID e').Only (Creates e) := by
  have create : (createIndexCM e').Only (Creates e) := by
    refine ⟨fun here => (e'.indexCM_id).trans (akin here), fun r => ?_⟩
    rcases r with err | _
    · show (if !err.isAlreadyExists then Prog.ret (e'.anchor, "", some err)
        else .ret (e'.anchor, e'.id, none) : ConfigMapApi InstallationResult).Only _
      split <;> trivial
    · trivial
  refine ⟨trivial, fun r => ?_⟩
  rcases r with err | cm
  · show (if !err.isNotFound then Prog.ret (e'.anchor, "", some err) else createIndexCM e').Only _
    split
    · trivial
    · exact create
  · show (if cm.data.index "id" ≠ "" then Prog.ret (e'.anchor, cm.data.index "id", none)
      else createIndexCM e').Only _
    split
    · trivial
    · exact create

/-- Whoever looks at the same place goes on with what is agreed on. -/
theorem Akin.goesOn (akin : Akin e e') (cms : ConfigMaps) : (ensureInstallationID e').wp (Beside e)
    (fun _ => Creates e) (fun res cms => e'.key = e.key → GoesOn e res cms) cms := by
  by_cases key : e'.key = e.key
  · have id := akin key
    have found : ∀ cms : ConfigMaps, cms.lookup e'.key = cms.lookup e.key := fun cms => by rw [key]
    have same : Toward e' = Toward e ∧ Creates e' = Creates e ∧ GoesOn e' = GoesOn e := by
      simp only [Toward, Creates, GoesOn, agreed, Occupied, Recorded, found, key, id, funext_iff, implies_true, and_self]
    have beside : Beside e' = Beside e := by simp only [Beside, same.1]
    have goesOn := ensureInstallationID_goesOn (e := e') cms
    rw [same.2.1, same.2.2, beside] at goesOn
    exact Prog.wp_mono goesOn fun _ _ h _ => h
  · exact Prog.wp_mono (akin.only.wp (fun _ _ creates => creates) cms) fun _ _ _ here => absurd here key

end

/-- **Main result.** However their calls interleave and fail, all servers of one installation that go on
have one id: the one found to begin with, if there is one. It is on record, unless a ConfigMap without an
id was there to begin with. -/
theorem starts_agree {cms : ConfigMaps} {P : Servers e}
    (run : Relation.ReflTransGen (Pool.Step (starts e)) (Pool.initial cms) P) {i : Nat}
    {t : Thread {e' // Akin e e'} ConfigMapCall ConfigMapAnswer InstallationResult ConfigMaps}
    (held : P.threads i = some t) (here : t.job.1.key = e.key) {anchor : AnchorMeta} {id : String}
    (done : t.rest = .ret (anchor, id, none)) :
    id = agreed e cms ∧ (Recorded P.state e.key id ∨ Blank e cms) := by
  have code := fun (j : {e' // Akin e e'}) (cms : ConfigMaps) =>
    Setting.wp_logged (v := (cms, [])) (j.2.goesOn cms)
  have kept := (Pool.sound_initial cms).parallel (starts_answers e) code
    (fun _ _ _ _ _ _ creates ans _ _ => ⟨Creates.toward creates ans, rfl⟩) (fun _ _ same _ _ => ⟨.inl same, rfl⟩) run
  have sound := (Pool.sound_initial cms).run (starts_answers e) code kept
  have toward : Toward e cms P.state := Pool.Sound.invariant (starts_answers e) code
    (fun _ _ _ _ _ _ before creates ans => before.trans (Creates.toward creates ans))
    (fun _ _ before same => before.trans (.inl same)) (Pool.sound_initial cms) (.inl rfl) kept
  obtain ⟨rfl, occupied⟩ := sound.result held done here rfl
  refine ⟨toward.agreed, ?_⟩
  rcases occupied.recorded with recorded | blank
  · exact .inl recorded
  · exact toward.blank blank

/-- A server may make one call, while the others wait. -/
theorem one_call {P : Servers e} {i : Nat} {j : {e' // Akin e e'}} {l : ConfigMapLog}
    {p : ConfigMapApi InstallationResult} (running : P.threads i = some ⟨j, l, p⟩) :
    ∃ l', Relation.ReflTransGen (Pool.Step (starts e)) P (Pool.set ⟨(p.advance answerConfigMap 1 P.state).2, P.threads⟩ i
      ⟨j, l ++ l', (p.advance answerConfigMap 1 P.state).1⟩) := by
  obtain ⟨l', turns, -⟩ := Pool.advance_thread (M := starts e) answerConfigMap_answers 1 p P.state P.threads i j l
  exact ⟨l', by simpa only [Pool.set_idle running] using Pool.turns_steps turns⟩

/-- It may go on to its end. -/
theorem all_calls {P : Servers e} {i : Nat} {j : {e' // Akin e e'}} {l : ConfigMapLog}
    {p : ConfigMapApi InstallationResult} (running : P.threads i = some ⟨j, l, p⟩) :
    ∃ l', Relation.ReflTransGen (Pool.Step (starts e)) P (Pool.set ⟨(p.run answerConfigMap P.state).2, P.threads⟩ i
      ⟨j, l ++ l', .ret (p.run answerConfigMap P.state).1⟩) := by
  obtain ⟨l', turns, -⟩ := Pool.run_thread (M := starts e) answerConfigMap_answers p P.state P.threads i j l
  exact ⟨l', by simpa only [Pool.set_idle running] using Pool.turns_steps turns⟩

/-- Of two replicas the first looks in vain, then the second starts, looks and creates, and then the
first is refused. -/
theorem starts_agree_twice : ∃ (P : Servers .helm) (t t' : Thread {e' // Akin .helm e'} ConfigMapCall
    ConfigMapAnswer InstallationResult ConfigMaps) (id id' : String),
    Relation.ReflTransGen (Pool.Step (starts .helm)) (Pool.initial ∅) P ∧
    P.threads 0 = some t ∧ t.rest = .ret (Installation.helm.anchor, id, none) ∧
    P.threads 1 = some t' ∧ t'.rest = .ret (Installation.helm.anchor, id', none) ∧
    id = id' ∧ Recorded P.state Installation.helm.key id := by
  let e : {e' // Akin .helm e'} := ⟨.helm, fun _ => rfl⟩
  let code := ensureInstallationID Installation.helm
  let late := code.advance answerConfigMap 1 ∅
  let P₀ : Servers .helm := (Pool.initial ∅).set 0 ⟨e, [], code⟩
  have first : Pool.Step (starts .helm) (Pool.initial ∅) P₀ := .spawn 0 e rfl
  obtain ⟨l₁, looks⟩ := one_call (P := P₀) (Pool.set_threads_self ..)
  let P₁ : Servers .helm := Pool.set ⟨late.2, P₀.threads⟩ 0 ⟨e, [] ++ l₁, late.1⟩
  have second : Pool.Step (starts .helm) P₁ (P₁.set 1 ⟨e, [], code⟩) := .spawn 1 e rfl
  obtain ⟨l₂, creates⟩ := all_calls (P := P₁.set 1 ⟨e, [], code⟩) (Pool.set_threads_self ..)
  let P₂ : Servers .helm := Pool.set ⟨(code.run answerConfigMap late.2).2, (P₁.set 1 ⟨e, [], code⟩).threads⟩ 1
    ⟨e, [] ++ l₂, .ret (code.run answerConfigMap late.2).1⟩
  obtain ⟨l₃, refused⟩ := all_calls (P := P₂) (i := 0) (j := e) (l := [] ++ l₁) (p := late.1) rfl
  have run := (((looks.head first).tail second).trans creates).trans refused
  have result : (code.run answerConfigMap late.2).1 = (Installation.helm.anchor, "c-codespace", none) := by decide +kernel
  have result' : (late.1.run answerConfigMap (code.run answerConfigMap late.2).2).1 =
      (Installation.helm.anchor, "c-codespace", none) := by decide +kernel
  have one := starts_agree run (i := 0) (Pool.set_threads_self ..) rfl (congrArg Prog.ret result')
  have other := starts_agree run (i := 1) rfl rfl (congrArg Prog.ret result)
  have fresh : ¬ Blank .helm ∅ := fun ⟨_, held, _⟩ => by cases held
  exact ⟨_, _, _, _, _, run, Pool.set_threads_self .., congrArg Prog.ret result', rfl, congrArg Prog.ret result,
    one.1.trans other.1.symm, one.2.resolve_right fresh⟩

end Codespace.Server
