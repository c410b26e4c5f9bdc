import Codespace.Server.Handlers

/-!
# Rules for the parts of the handlers

One weakest-precondition rule for each part that several handlers share, in any setting.
A rule asks for what follows the part, once for every way the part can end; the proofs
about handlers use these rules and do not unfold the parts.
-/

namespace Codespace.Server
set_option autoImplicit false
open Interact

variable {d : ServerDeps} {σ : Type} {W : Setting Call Answer σ} {G : σ → Call → Prop}
  {α : Type} {s : σ}

theorem granted_iff {decision : Except String Bool} : granted decision = true ↔ decision = .ok true := by
  cases decision <;> simp [granted]

/-- The gate, run on a cluster. -/
theorem run_mustCan {χ : Type} {child : ChildApi χ} {r : Request} {cl : Claims} (claims : r.claims = some cl)
    (resource action domain : String) (ρ : Cluster χ) :
    (MustCan d r resource action domain).run (answer child) ρ =
      (if granted (ρ.policy cl.sub cl.roles resource action domain) then .ok cl
        else .error (d.rbacMw.denied (some (ρ.policy cl.sub cl.roles resource action domain))), ρ) := by
  unfold MustCan
  rw [claims]
  show (if granted (ρ.policy cl.sub cl.roles resource action domain) then .ret (.ok cl)
    else .ret (.error (d.rbacMw.denied (some (ρ.policy cl.sub cl.roles resource action domain)))) :
      Api (Except HttpResp Claims)).run (answer child) ρ = _
  split <;> rfl

section

variable {I : σ → Prop}

/-- The gate: the request goes on only where Enforce granted its principal what it asked. -/
theorem wp_mustCan {r : Request} {resource action domain : String}
    {f : Except HttpResp Claims → Api α} {Q : α → σ → Prop} (stable : Prog.Stable W I)
    (ask : ∀ cl : Claims, Prog.Harmless W G I (.enforce cl.sub cl.roles resource action domain))
    (denied : ∀ resp s', I s' → 400 ≤ resp.status → (f (.error resp)).wp W G Q s')
    (granted : ∀ cl s₁ s₂, r.claims = some cl → I s₂ →
      W.answer s₁ (.enforce cl.sub cl.roles resource action domain) (.ok true) s₂ →
      (f (.ok cl)).wp W G Q s₂)
    (start : I s) : (MustCan d r resource action domain >>= f).wp W G Q s := by
  unfold MustCan
  cases claims : r.claims with
  | none => exact denied _ _ start (d.rbacMw.denied_status none)
  | some cl =>
    refine fun s₁ rely => ⟨(ask cl).asks s₁ (stable _ _ start rely), fun decision s₂ ans => ?_⟩
    have inv := (ask cl).keeps _ _ _ (stable _ _ start rely) ans
    show ((if Server.granted decision then .ret (.ok cl)
      else .ret (.error (d.rbacMw.denied (some decision))) : Api (Except HttpResp Claims)) >>= f).wp W G Q s₂
    cases yes : Server.granted decision with
    | true => exact granted cl s₁ s₂ claims inv (granted_iff.1 yes ▸ ans)
    | false => exact denied _ _ inv (d.rbacMw.denied_status _)

/-- Fetching: the request goes on only with a Session that was stored and is not foreign. -/
theorem wp_fetch {k : Key} {f : Except HttpResp Session → Api α} {Q : α → σ → Prop}
    (stable : Prog.Stable W I) (ask : Prog.Harmless W G I (.get k))
    (refused : ∀ resp s', I s' → 400 ≤ resp.status → (f (.error resp)).wp W G Q s')
    (own : ∀ cur s₁ s₂, I s₁ → W.answer s₁ (.get k) (.ok cur) s₂ → foreign d cur = false →
      (f (.ok cur)).wp W G Q s₂)
    (start : I s) : (fetch d k >>= f).wp W G Q s := by
  refine fun s₁ rely => ⟨ask.asks s₁ (stable _ _ start rely), fun got s₂ ans => ?_⟩
  have inv := ask.keeps _ _ _ (stable _ _ start rely) ans
  rcases got with e | cur
  · exact refused _ _ inv (Nat.le_add_left 400 100)
  · show ((if foreign d cur then .ret (.error (httpError "not found" 404)) else .ret (.ok cur) :
      Api (Except HttpResp Session)) >>= f).wp W G Q s₂
    cases mine : foreign d cur with
    | true => exact refused (httpError "not found" 404) s₂ inv (Nat.le_add_left 400 4)
    | false => exact own cur s₁ s₂ (stable _ _ start rely) ans mine

/-- Updating with retries, with an invariant `I` of the states before each attempt: a refused
attempt keeps it, and what the last attempt leaves is all that the response depends on. -/
theorem wp_attempts {sess : Session} {failure : String} {Q : HttpResp → σ → Prop}
    (stable : Prog.Stable W I)
    (asks : ∀ s, I s → G s (.update sess))
    (again : ∀ s s' e, I s → W.answer s (.update sess) (.error e) s' → e.isConflict = true → I s')
    (failed : ∀ e s s₁ s', I s → W.answer s (.update sess) (.error e) s₁ → W.rely s₁ s' →
      Q (errJSON (failure ++ e.message)) s')
    (done : ∀ out s s₁ s', I s → W.answer s (.update sess) (.ok out) s₁ → W.rely s₁ s' →
      Q (writeJSON (.session out)) s')
    (start : I s) : (store d sess failure).wp W G Q s := by
  let Ends (out : Except ApiError Session) (s : σ) : Prop :=
    (∀ e, out = .error e → Q (errJSON (failure ++ e.message)) s) ∧ ∀ cur, out = .ok cur → Q (writeJSON (.session cur)) s
  have last : ∀ out s s₁ s₂ s₃, I s → W.answer s (.update sess) out s₁ → W.rely s₁ s₂ → W.rely s₂ s₃ →
      Ends out s₃ := by
    intro out s s₁ s₂ s₃ inv ans r r'
    refine ⟨fun e eq => ?_, fun cur eq => ?_⟩ <;> subst eq
    · exact failed e s s₁ s₃ inv ans (W.rely_trans r r')
    · exact done cur s s₁ s₃ inv ans (W.rely_trans r r')
  have loop : ∀ n s, I s → (retryOnConflict (api (.update sess)) n).wp W G
      (fun out s' => ∀ s'', W.rely s' s'' → Ends out s'') s := by
    intro n
    induction n with
    | zero =>
      refine fun s start s₁ r₁ => ⟨asks s₁ (stable _ _ start r₁), fun out s₂ ans s₃ r₃ s₄ r₄ => ?_⟩
      exact last out _ _ _ _ (stable _ _ start r₁) ans r₃ r₄
    | succ n ih =>
      refine fun s start s₁ r₁ => ⟨asks s₁ (stable _ _ start r₁), fun out s₂ ans => ?_⟩
      have inv := stable _ _ start r₁
      cases out with
      | ok out => exact fun s₃ r₃ s₄ r₄ => last (.ok out) _ _ _ _ inv ans r₃ r₄
      | error e =>
        show (if e.isConflict then retryOnConflict (api (.update sess)) n else .ret (.error e)).wp W G _ s₂
        cases conflict : e.isConflict with
        | true => exact ih s₂ (again _ _ e inv ans conflict)
        | false => exact fun s₃ r₃ s₄ r₄ => last (.error e) _ _ _ _ inv ans r₃ r₄
  refine Prog.wp_bind (Prog.wp_mono (loop _ s start) fun out s' h => ?_)
  cases out with
  | error e => exact fun s'' rely => (h s'' rely).1 e rfl
  | ok cur => exact fun s'' rely => (h s'' rely).2 cur rfl

/-- The same where nothing depends on why the last attempt failed. -/
theorem wp_store {sess : Session} {failure : String} {Q : HttpResp → σ → Prop}
    (stable : Prog.Stable W I)
    (asks : ∀ s, I s → G s (.update sess))
    (again : ∀ s s' e, I s → W.answer s (.update sess) (.error e) s' → e.isConflict = true → I s')
    (failed : ∀ resp s', 400 ≤ resp.status → Q resp s')
    (done : ∀ out s s₁ s', I s → W.answer s (.update sess) (.ok out) s₁ → W.rely s₁ s' →
      Q (writeJSON (.session out)) s')
    (start : I s) : (store d sess failure).wp W G Q s :=
  wp_attempts stable asks again (fun _ _ _ _ _ _ _ => failed _ _ (Nat.le_add_left 400 100)) done start

/-- The filter of an all-namespaces list keeps what Enforce granted, item by item. -/
theorem wp_canAccess {pr : Claims} {items : List Session} {P : Session → Prop} (stable : Prog.Stable W I)
    (ask : ∀ ns, Prog.Harmless W G I (.enforce pr.sub pr.roles sessionResourceString "list" ns))
    (granted : ∀ s s' (item : Session), W.answer s
      (.enforce pr.sub pr.roles sessionResourceString "list" item.metadata.ns) (.ok true) s' → P item)
    (start : I s) : (canAccess pr items).wp W G (fun kept s' => I s' ∧ ∀ item ∈ kept, P item) s := by
  induction items generalizing s with
  | nil => exact fun s' r => ⟨stable _ _ start r, fun _ mem => absurd mem List.not_mem_nil⟩
  | cons item items ih =>
    refine fun s₁ r₁ => ⟨(ask _).asks s₁ (stable _ _ start r₁), fun decision s₂ ans => ?_⟩
    have inv := (ask _).keeps _ _ _ (stable _ _ start r₁) ans
    show (canAccess pr items >>= fun kept =>
      .ret (if Server.granted decision then item :: kept else kept)).wp W G _ s₂
    refine Prog.wp_bind (Prog.wp_mono (ih inv) fun kept s' ⟨inv', all⟩ s'' r => ⟨stable _ _ inv' r, ?_⟩)
    show ∀ it ∈ if Server.granted decision then item :: kept else kept, P it
    cases yes : Server.granted decision with
    | true => exact List.forall_mem_cons.2 ⟨granted _ _ item (granted_iff.1 yes ▸ ans), all⟩
    | false => exact all

/-- Sending a list only looks up who manages which instance. -/
theorem wp_sendList {sessions : List Session} {namespaces : List String} {filtered : Bool}
    {Q : HttpResp → σ → Prop} (asks : ∀ s, G s (.buildInstanceMetaIndex d.appName))
    (sent : ∀ idx s', Q (writeJSON
      (.sessionList (sessions.map (enrich d idx)) sessions.length namespaces filtered)) s') :
    (sendList d sessions namespaces filtered).wp W G Q s := by
  unfold sendList
  cases d.clusterScope with
  | true => exact fun s₁ _ => ⟨asks s₁, fun idx _ _ s' _ => sent idx s'⟩
  | false => exact fun s' _ => sent ∅ s'

/-- The gate of an adoption: one of its two questions was answered with a grant. -/
theorem wp_mayAdopt {cl : Claims} {ns : String} {f : Bool → Api α} {Q : α → σ → Prop}
    (stable : Prog.Stable W I)
    (ask : ∀ resource action domain, Prog.Harmless W G I (.enforce cl.sub cl.roles resource action domain))
    (refused : ∀ s', I s' → (f false).wp W G Q s')
    (granted : ∀ s s', I s' → (W.answer s (.enforce cl.sub cl.roles "*" "admin" "*") (.ok true) s' ∨
      W.answer s (.enforce cl.sub cl.roles sessionResourceString "update" ns) (.ok true) s') →
      (f true).wp W G Q s')
    (start : I s) : (mayAdopt cl ns >>= f).wp W G Q s := by
  refine fun s₁ r₁ => ⟨(ask _ _ _).asks _ (stable _ _ start r₁), fun decision s₂ ans => ?_⟩
  have inv := (ask _ _ _).keeps _ _ _ (stable _ _ start r₁) ans
  show ((if Server.granted decision then .ret true else do
    return Server.granted (← api (.enforce cl.sub cl.roles sessionResourceString "update" ns)) :
      Api Bool) >>= f).wp W G Q s₂
  cases yes : Server.granted decision with
  | true => exact granted s₁ s₂ inv (.inl (granted_iff.1 yes ▸ ans))
  | false =>
    refine fun s₃ r₃ => ⟨(ask _ _ _).asks _ (stable _ _ inv r₃), fun decision' s₄ ans' => ?_⟩
    have inv' := (ask _ _ _).keeps _ _ _ (stable _ _ inv r₃) ans'
    show (f (Server.granted decision')).wp W G Q s₄
    cases yes' : Server.granted decision' with
    | true => exact granted s₃ s₄ inv' (.inr (granted_iff.1 yes' ▸ ans'))
    | false => exact refused s₄ inv'

end

/-! ## Dispatch -/

section

variable {r : Request} {P : Api HttpResp → Prop}

theorem wrapWithAuth_cases {handler : Request → Api HttpResp}
    (anonymous : r.claims = none → P (.ret (httpError "unauthorized" 401))) (served : P (handler r)) :
    P (wrapWithAuth handler r) := by
  unfold wrapWithAuth
  split
  · rename_i none
    exact anonymous none
  · exact served

/-- Where a request below the session collection goes. -/
theorem serve_session_cases (anonymous : r.claims = none → P (.ret (httpError "unauthorized" 401)))
    (invalid : (pathParts r).length < 2 → P (.ret (invalidPath "[/operation]")))
    (scale : isScale r = true → P (handleScaleSession d r))
    (get : isScale r = false → r.method = "GET" → P (handleGetSession d r))
    (update : isScale r = false → r.method = "PUT" ∨ r.method = "PATCH" → P (handleUpdateSession d r))
    (delete : isScale r = false → r.method = "DELETE" → P (handleDeleteSession d r))
    (other : isScale r = false → r.method ≠ "GET" → ¬ (r.method = "PUT" ∨ r.method = "PATCH") →
      r.method ≠ "DELETE" → P (.ret (httpError "method not allowed" 405))) :
    P (serve d .session r) := by
  refine wrapWithAuth_cases anonymous ?_
  unfold handleSessionOperationsWithPath
  split
  · rename_i short
    exact invalid short
  split
  · rename_i yes
    exact scale yes
  rename_i no
  have item : isScale r = false := Bool.eq_false_iff.2 no
  split
  · rename_i method
    exact get item method
  split
  · rename_i method
    exact update item method
  split
  · rename_i method
    exact delete item method
  · rename_i notGet notUpdate notDelete
    exact other item notGet notUpdate notDelete

end

end Codespace.Server
