import Codespace.Go.Codec
import Codespace.Server.Ownership

/-!
# Sessions as JSON, and back

The JSON of a Session and of a create request, by the tags of `session_types.go` and
`sessions_handlers.go`. The two share the members of the spec, so what the server shows of a
Session can be sent back in a PUT, or, as `api.create` does it, to make the Session again.
-/

namespace Codespace.Server
set_option autoImplicit false
open Interact Versioned Go Go.Codec

/-- A member finds the field of its name, where no two names are the same up to case. -/
theorem fields_at {α : Type} {fs : List (String × Decoder α)} {name : String} {decode : Decoder α} (i : Nat)
    (distinct : (fs.map fun f => f.1.toList.map foldChar).Nodup) (held : fs[i]? = some (name, decode)) :
    fields fs name = some decode := by
  have mem := List.mem_of_getElem? held
  clear held
  induction fs with
  | nil => cases mem
  | cons f fs ih =>
    rw [List.map_cons, List.nodup_cons] at distinct
    rcases List.mem_cons.1 mem with rfl | later
    · simp [fields, matchesField]
    · have other : matchesField f.1 name = false :=
        decide_eq_false fun same => distinct.1 (List.mem_map.2 ⟨_, later, same⟩)
      have rest := ih distinct.2 later
      simpa only [fields, List.find?_cons, other] using rest

/-! ## The encoders, which the decoders undo -/

/-- `ProfileSpec` -/
def profile : Codec ProfileSpec where
  encode := fun p => .obj (string.always "ide" p.ide ++ (string.always "image" p.image ++
    ((slice string).omitEmpty "cmd" p.cmd ++ [])))
  decode := decodeProfile
  zero := ⟨"", "", []⟩
  reads := fun p => by
    unfold decodeProfile
    exact (string.decode_always (fields_at 0 (by decide) rfl) (by rfl) _ _).trans <|
      (string.decode_always (fields_at 1 (by decide) rfl) (by rfl) _ _).trans <|
      ((slice string).decode_omitEmpty (fields_at 2 (by decide) rfl) (by rfl) (by rfl) _ _).trans (by rfl)

/-- `OIDCRef` -/
def oidcRef : Codec OIDCRef where
  encode := fun o => .obj (string.always "issuerURL" o.issuerURL ++
    (string.omitEmpty "clientIDSecret" o.clientIDSecret ++ (string.omitEmpty "clientSecretRef" o.clientSecretRef ++ [])))
  decode := decodeOIDC
  zero := ⟨"", "", ""⟩
  reads := fun o => by
    unfold decodeOIDC
    exact (string.decode_always (fields_at 0 (by decide) rfl) (by rfl) _ _).trans <|
      (string.decode_omitEmpty (fields_at 1 (by decide) rfl) (by rfl) (by rfl) _ _).trans <|
      (string.decode_omitEmpty (fields_at 2 (by decide) rfl) (by rfl) (by rfl) _ _).trans (by rfl)

/-- `AuthSpec` -/
def authSpec : Codec AuthSpec where
  encode := fun a => .obj (string.omitEmpty "mode" a.mode ++
    ((oidcRef.pointer fun _ => nofun).omitEmpty "oidc" a.oidc ++ []))
  decode := decodeAuth
  zero := ⟨"", none⟩
  reads := fun a => by
    unfold decodeAuth
    exact (string.decode_omitEmpty (fields_at 0 (by decide) rfl) (by rfl) (by rfl) _ _).trans <|
      ((oidcRef.pointer _).decode_omitEmpty (fields_at 1 (by decide) rfl) (by rfl) (by rfl) _ _).trans (by rfl)

/-- `PVCSpec` -/
def pvcSpec : Codec PVCSpec where
  encode := fun p => .obj (string.always "size" p.size ++
    (string.omitEmpty "storageClassName" p.storageClassName ++ (string.always "mountPath" p.mountPath ++ [])))
  decode := decodePVC
  zero := ⟨"", "", ""⟩
  reads := fun p => by
    unfold decodePVC
    exact (string.decode_always (fields_at 0 (by decide) rfl) (by rfl) _ _).trans <|
      (string.decode_omitEmpty (fields_at 1 (by decide) rfl) (by rfl) (by rfl) _ _).trans <|
      (string.decode_always (fields_at 2 (by decide) rfl) (by rfl) _ _).trans (by rfl)

/-- `NetSpec` -/
def netSpec : Codec NetSpec where
  encode := fun n => .obj (string.omitEmpty "host" n.host ++
    (string.omitEmpty "tlsSecretName" n.tlsSecretName ++ (stringMap.omitEmpty "annotations" n.annotations ++ [])))
  decode := decodeNet
  zero := ⟨"", "", ∅⟩
  reads := fun n => by
    unfold decodeNet
    exact (string.decode_omitEmpty (fields_at 0 (by decide) rfl) (by rfl) (by rfl) _ _).trans <|
      (string.decode_omitEmpty (fields_at 1 (by decide) rfl) (by rfl) (by rfl) _ _).trans <|
      (stringMap.decode_omitEmpty (fields_at 2 (by decide) rfl) (by rfl) (by rfl) _ _).trans (by rfl)

/-! ### Requests -/

def authPointer : Codec (Option AuthSpec) := authSpec.pointer fun _ => nofun

def pvcPointer : Codec (Option PVCSpec) := pvcSpec.pointer fun _ => nofun

def netPointer : Codec (Option NetSpec) := netSpec.pointer fun _ => nofun

def countPointer : Codec (Option Int32) := int32.pointer fun _ => nofun

/-- The members that a create request and a spec have in common. -/
def specMembers (req : SessionCreateRequest) : List (String × Json) :=
  profile.always "profile" req.profile ++ (authPointer.omitEmpty "auth" req.auth ++
    (pvcPointer.omitEmpty "home" req.home ++ (pvcPointer.omitEmpty "scratch" req.scratch ++
      (netPointer.omitEmpty "networking" req.network ++ (countPointer.omitEmpty "replicas" req.replicas ++ [])))))

/-- `SessionCreateRequest` -/
def sessionCreateRequest : Codec SessionCreateRequest where
  encode := fun req => .obj (string.always "name" req.name ++ (string.always "namespace" req.ns ++ specMembers req))
  decode := decodeCreateRequest
  zero := emptyCreateRequest
  reads := fun req => by
    unfold decodeCreateRequest specMembers
    exact (string.decode_always (fields_at 0 (by decide) rfl) (by rfl) _ _).trans <|
      (string.decode_always (fields_at 1 (by decide) rfl) (by rfl) _ _).trans <|
      (profile.decode_always (fields_at 2 (by decide) rfl) (by rfl) _ _).trans <|
      (authPointer.decode_omitEmpty (fields_at 3 (by decide) rfl) (by rfl) (by rfl) _ _).trans <|
      (pvcPointer.decode_omitEmpty (fields_at 4 (by decide) rfl) (by rfl) (by rfl) _ _).trans <|
      (pvcPointer.decode_omitEmpty (fields_at 5 (by decide) rfl) (by rfl) (by rfl) _ _).trans <|
      (netPointer.decode_omitEmpty (fields_at 6 (by decide) rfl) (by rfl) (by rfl) _ _).trans <|
      (countPointer.decode_omitEmpty (fields_at 7 (by decide) rfl) (by rfl) (by rfl) _ _).trans (by rfl)

/-! ## What is made of them -/

section

variable {χ : Type} {child : ChildApi χ} {d : ServerDeps} {r : Request}

/-- What a create request asks for. -/
def SessionCreateRequest.spec (req : SessionCreateRequest) : SessionSpec where
  profile := req.profile
  auth := req.auth.getD ⟨"none", none⟩
  home := req.home
  scratch := req.scratch
  networking := req.network
  replicas := some (req.replicas.getD 1)

/-- The request as `api.create` makes it of a Session, for a client that has been shown one. -/
def asRequest (s : Session) : SessionCreateRequest :=
  ⟨s.metadata.name, s.metadata.ns, s.spec.profile, some s.spec.auth, s.spec.home, s.spec.scratch, s.spec.networking,
    s.spec.replicas⟩

/-- The last call of the log has stored a Session where there was none, and the response is that Session. -/
def Made (req : SessionCreateRequest) (resp : HttpResp) (l : CallLog χ) : Prop :=
  ∃ pre ev out, l = pre ++ [ev] ∧ Quiet pre ∧ resp = ⟨201, .session out⟩ ∧ out.key = ⟨req.ns, req.name⟩ ∧
    out.spec = req.spec ∧ ev.before.sessions.get out.key = none ∧ ev.after.sessions.get out.key = some out

theorem answers_create_free {σ σ' : Cluster χ} {sent out : Session}
    (ans : Answers child σ (.create sent) (.ok out) σ') : σ.sessions.get sent.key = none := by
  rcases ans with normal | ⟨m, failed, -⟩
  · simp only [answer] at normal
    split at normal
    · cases normal
    · assumption
  · cases failed

/-- A create request that succeeds has made what its body asks for. -/
theorem handleCreateSession_made {v : LoggedView χ} (quiet : Quiet v.2) :
    (handleCreateSession d r).wp (Among child).logged (fun _ _ => True) (fun resp v' => resp.status < 300 →
      ∃ req, creation r = some req ∧ Made req resp v'.2) v := by
  have refusal : ∀ {message : String} {status : Nat} {v : LoggedView χ}, 300 ≤ status →
      (Prog.ret (httpError message status) : Api HttpResp).wp (Among child).logged (fun _ _ => True)
        (fun resp v' => resp.status < 300 → ∃ req, creation r = some req ∧ Made req resp v'.2) v := by
    intro message status v bad v' _ good
    exact absurd good (Nat.not_lt.2 bad)
  unfold handleCreateSession
  split
  · exact refusal (by decide)
  split
  · exact refusal (by decide)
  rename_i req body
  split
  · exact refusal (by decide)
  extract_lets full
  have asked : creation r = some full := by
    rw [creation, body]
    rfl
  split
  · exact refusal (by decide)
  split
  · exact refusal (by decide)
  refine wp_mustCan (I := fun v => Quiet v.2) (fun _ _ h rely => h.rely rely)
    (fun _ => ⟨fun _ _ => trivial, fun _ _ _ h ans => h.reads ans rfl⟩) ?_ ?_ quiet
  · intro resp v₁ _ bad v₂ _ good
    exact absurd good (by omega)
  intro cl _ v₁ _ h _
  refine Prog.wp_perform fun v₂ rely₂ => ⟨trivial, fun now v₃ ans₃ => ?_⟩
  have still : Quiet v₃.2 := (h.rely rely₂).reads ans₃ rfl
  refine Prog.wp_perform fun v₄ rely₄ => ⟨trivial, fun out v₅ ans₅ => ?_⟩
  rcases out with e | out
  · exact fun _ _ good => absurd good (show ¬ 500 < 300 by decide)
  · intro v₆ rely₆ _
    obtain ⟨stored, n, uid, rfl⟩ := answers_create_ok ans₅.1
    have free : v₄.1.sessions.get (requested d full cl now).key = none := answers_create_free ans₅.1
    exact ⟨full, asked, v₄.2, ⟨_, _, v₄.1, v₅.1⟩, _, by rw [rely₆.2, ans₅.2], still.rely rely₄, rfl, rfl, rfl, free, stored⟩

theorem code_makes (j : Job) (σ : Cluster χ) : j.code.wp (Among child).logged (fun _ _ => True)
    (fun resp v => ∀ d r resp', j = .serve d .sessions r → r.method = "POST" → resp = some resp' →
      resp'.status < 300 → ∃ req, creation r = some req ∧ Made req resp' v.2) (σ, []) := by
  have quiet : Quiet (σ, ([] : CallLog χ)).2 := fun _ mem => absurd mem List.not_mem_nil
  by_cases create : ∃ d r, j = .serve d .sessions r ∧ r.method = "POST"
  · obtain ⟨d, r, rfl, post⟩ := create
    have makes : (Server.serve d .sessions r).wp (Among child).logged (fun _ _ => True) (fun resp v' =>
        resp.status < 300 → ∃ req, creation r = some req ∧ Made req resp v'.2) (σ, []) := by
      refine wrapWithAuth_cases (P := fun p => Prog.wp _ _ p _ _) ?_ ?_
      · exact fun _ _ _ good => absurd good (show ¬ 401 < 300 by decide)
      · rw [handleSessionOperations, if_neg (by rw [post]; decide), if_pos post]
        exact handleCreateSession_made quiet
    refine Prog.wp_bind (Prog.wp_mono makes fun resp v made v' rely => ?_)
    rintro _ _ _ ⟨⟩ - ⟨⟩ good
    rw [rely.2]
    exact made good
  · have none : ∀ resp (v : LoggedView χ), ∀ d r resp', j = .serve d .sessions r → r.method = "POST" →
        resp = some resp' → resp'.status < 300 → ∃ req, creation r = some req ∧ Made req resp' v.2 :=
      fun _ _ d r _ job post => absurd ⟨d, r, job, post⟩ create
    exact Prog.wp_true none _

variable {P : Pool Job Call Answer (Option HttpResp) (Cluster χ)} {σ : Cluster χ} {i : Nat}
  {t : Thread Job Call Answer (Option HttpResp) (Cluster χ)} {resp : HttpResp} {req : SessionCreateRequest}

theorem decodeBody_request (body : r.body = some (sessionCreateRequest.encode req)) :
    decodeBody decodeCreateRequest emptyCreateRequest r = some req := by
  have reads : decodeCreateRequest (sessionCreateRequest.encode req) emptyCreateRequest = (req, false) :=
    sessionCreateRequest.reads req
  rw [decodeBody, body]
  simp [reads]

/-- A create request makes what a client has encoded. -/
theorem made_as_sent (run : Relation.ReflTransGen (Pool.Step (fleet child)) (Pool.initial σ) P)
    (held : P.threads i = some t) (done : t.rest = .ret (some resp)) (success : resp.status < 300)
    (job : t.job = .serve d .sessions r) (post : r.method = "POST")
    (body : r.body = some (sessionCreateRequest.encode req)) (named : req.ns ≠ "") : Made req resp t.log := by
  obtain ⟨req', asked, made⟩ := fleet_result code_makes run held done d r resp job post rfl success
  have same : creation r = some req := by
    rw [creation, decodeBody_request body, Option.map_some, if_neg named]
  cases asked.symm.trans same
  exact made

/-- A PUT gives the Session the spec that a client has encoded. -/
theorem put_as_sent (run : Relation.ReflTransGen (Pool.Step (fleet child)) (Pool.initial σ) P)
    (held : P.threads i = some t) (done : t.rest = .ret (some resp)) (success : resp.status < 300)
    (job : t.job = .serve d .session r) (put : r.method = "PUT")
    (body : r.body = some (sessionCreateRequest.encode req)) {k : Key} (about : pathParts r = [k.ns, k.name]) :
    ∃ cl now cur, r.claims = some cl ∧ Landed k cur (touched cl now (replaced req cur)) resp t.log := by
  have changes : Changes .session r := .inr (.inl put)
  obtain ⟨now, k', change, cur, own, landed, -⟩ :=
    fleet_result code_outcome run held done d .session r resp job rfl changes success
  have item : isScale r = false := by simp [isScale, about]
  cases claims : r.claims with
  | none => simp [transformation, claims] at own
  | some cl =>
    have trans : transformation d .session r now = some (k, fun s => touched cl now (replaced req s)) := by
      simp [transformation, claims, about, item, edit, put, decodeBody_request body]
    cases trans.symm.trans own
    exact ⟨cl, now, cur, rfl, landed⟩

/-- **Main result.** What a client is shown of a Session it can send back. However the calls of others
interleave: where a create request with it succeeds, the new Session has the same spec, with the number of
replicas filled in, and where a PUT with it succeeds, the Session that is current then gets the very spec. -/
theorem spec_round_trip {s : Session} (run : Relation.ReflTransGen (Pool.Step (fleet child)) (Pool.initial σ) P)
    (held : P.threads i = some t) (done : t.rest = .ret (some resp)) (success : resp.status < 300)
    (body : r.body = some (sessionCreateRequest.encode (asRequest s))) :
    (t.job = .serve d .sessions r → r.method = "POST" → s.metadata.ns ≠ "" → ∃ out, resp = ⟨201, .session out⟩ ∧
      out.key = s.key ∧ out.spec = { s.spec with replicas := some (s.spec.replicas.getD 1) } ∧
      ∃ ev ∈ t.log, ev.before.sessions.get s.key = none ∧ ev.after.sessions.get s.key = some out) ∧
    (t.job = .serve d .session r → r.method = "PUT" → ∀ k : Key, pathParts r = [k.ns, k.name] →
      ∃ cl now cur, r.claims = some cl ∧ Landed k cur (touched cl now { cur with spec := s.spec }) resp t.log) := by
  constructor
  · intro job post named
    obtain ⟨pre, ev, out, log, -, rfl, key, spec, free, stored⟩ := made_as_sent run held done success job post body named
    have same : out.key = s.key := key
    refine ⟨out, rfl, same, spec, ev, by simp [log], ?_, ?_⟩
    · rwa [← same]
    · rwa [← same]
  · intro job put k about
    exact put_as_sent run held done success job put body about

end

/-- A Session with something in most fields. -/
def furnished : Session := .plain ⟨"ns", "a"⟩ 7 {
  profile := ⟨"vscode", "img", ["serve", "--auth", ""]⟩
  auth := ⟨"oauth2proxy", some ⟨"https://issuer", "", "ref"⟩⟩
  home := some ⟨"1Gi", "", "/home"⟩
  scratch := none
  networking := some ⟨"h", "", ∅⟩
  replicas := none }

/-- A job that nobody else comes between. -/
theorem Job.alone (job : Job) (σ : Cluster Manifest) : ∃ P t, Relation.ReflTransGen (Pool.Step (fleet replaceApi))
    (Pool.initial σ) P ∧ P.threads 0 = some t ∧ t.job = job ∧ t.rest = .ret (job.code.run (answer replaceApi) σ).1 ∧
    P.state = (job.code.run (answer replaceApi) σ).2 := by
  have start : Pool.Step (fleet replaceApi) (Pool.initial σ) _ := .spawn 0 job rfl
  obtain ⟨l, rest, -⟩ := Pool.run_thread (M := fleet replaceApi) (answers_answer replaceApi) job.code σ
    (fun _ => none) 0 job []
  exact ⟨_, _, .head start (Pool.turns_steps rest), Pool.set_threads_self _ 0 _, rfl, rfl, rfl⟩

/-- It is made again from what was shown of it. -/
theorem spec_round_trip_furnished : ∃ (P : Pool Job Call Answer (Option HttpResp) (Cluster Manifest)) (out : Session),
    Relation.ReflTransGen (Pool.Step (fleet replaceApi)) (Pool.initial { Cluster.blank with policy := allowAll }) P ∧
    out.key = furnished.key ∧ out.spec = { furnished.spec with replicas := some 1 } := by
  let σ : Cluster Manifest := { Cluster.blank with policy := allowAll }
  let r : Request := ⟨"POST", "/api/v1/server/sessions", [], some (sessionCreateRequest.encode (asRequest furnished)),
    some ⟨"u", []⟩⟩
  let job : Job := .serve (.plain "i" false) .sessions r
  obtain ⟨P, t, run, held, asked, done, -⟩ := job.alone σ
  have sent : (job.code.run (answer replaceApi) σ).1.map HttpResp.status = some 201 := by decide +kernel
  obtain ⟨resp, answered, created⟩ := Option.map_eq_some_iff.1 sent
  rw [answered] at done
  have remade := (spec_round_trip run held done (by rw [created]; decide) rfl).1 asked rfl (by decide)
  obtain ⟨out, -, key, spec, -⟩ := remade
  exact ⟨P, out, run, key, spec⟩

end Codespace.Server
