import Codespace.Controller.Queue
import Codespace.Server.Bodies
import Codespace.Text.Json
import Codespace.Text.Words
import Codespace.Ui.Permissions

/-!
# The create dialog

`CreateSessionModal.tsx` and `create` of `useSessions.ts`, from what is entered to the request.
The fields of the form are changed one by one and by three effects: another namespace is
preferred when the page's namespace changes, another IDE brings its own image and command, and
a form that was sent is cleared when the answer arrives, with the image and command of the IDE
that was chosen when it was sent. The request is a create request of `sessions_handlers.go`.
-/

namespace Codespace.Ui
set_option autoImplicit false
open Interact Versioned Server Controller Go Go.Codec Text.Words

/-! ## Functions of the browser -/

/-- White space, line ends included. -/
def isSpace (c : Char) : Bool :=
  c ∈ ['\t', '\n', '\x0b', '\x0c', '\r', ' ', '\u00a0', '\u1680', '\u2028', '\u2029', '\u202f', '\u205f', '\u3000',
    '\ufeff'] || ('\u2000' ≤ c && c ≤ '\u200a')

/-- `text.trim()`. -/
def trim (text : String) : String := String.ofList (Text.Words.trim isSpace text.toList)

/-- `text.split(/\s+/)`. -/
def splitSpaces (text : String) : List String := (pieces isSpace false text.toList).map String.ofList

def digitValue (radix : Nat) (c : Char) : Option Nat := (Text.Json.hexValue c).filter (· < radix)

/-- `parseInt`, or none for `NaN`. -/
def parseInt (text : String) : Option Int :=
  let text := text.toList.dropWhile isSpace
  let (sign, text) : Int × List Char := match text with
    | '-' :: rest => (-1, rest)
    | '+' :: rest => (1, rest)
    | text => (1, text)
  let (radix, text) : Nat × List Char := match text with
    | '0' :: 'x' :: rest => (16, rest)
    | '0' :: 'X' :: rest => (16, rest)
    | text => (10, text)
  let digits := text.takeWhile fun c => (digitValue radix c).isSome
  if digits = [] then none
  else some (sign * digits.foldl (fun n c => radix * n + (digitValue radix c).getD 0) 0)

/-- The number nearest to a whole number, or none for `Infinity`. -/
def toNumber (n : Nat) : Option Nat := (toFloat64 n).map fun q => q.num.toNat

/-! ## The form -/

inductive Ide where
  | jupyterlab
  | vscode
  deriving DecidableEq

namespace Ide

def value : Ide → String
  | .jupyterlab => "jupyterlab"
  | .vscode => "vscode"

def image : Ide → String
  | .jupyterlab => "jupyter/minimal-notebook:latest"
  | .vscode => "codercom/code-server:latest"

def cmd : Ide → String
  | .jupyterlab => "start-notebook.sh --NotebookApp.token="
  | .vscode => "--bind-addr 0.0.0.0:8080 --auth none"

end Ide

/-- The fields; there are no `replicas` for `NaN` and `Infinity`. -/
structure Form where
  ns : String
  name : String
  replicas : Option Nat
  ide : Ide
  image : String
  cmd : String
  host : String
  deriving DecidableEq

/-- The body of a create request, as far as the UI fills it in. -/
structure CreateBody where
  name : String
  ns : Option String
  replicas : Option Nat
  ide : String
  image : String
  cmd : Option (List String)
  host : Option String
  deriving DecidableEq

namespace Form

def start : Form := ⟨"", "", some 1, .jupyterlab, Ide.jupyterlab.image, Ide.jupyterlab.cmd, ""⟩

/-- `Math.max(0, parseInt(v || "0"))`. -/
def toReplicas (v : String) : Option Nat := (parseInt (if v = "" then "0" else v)).bind fun n => toNumber n.toNat

/-- `handleIDEChange`. -/
def handleIDEChange (f : Form) (ide : Ide) : Form := { f with ide := ide, image := ide.image, cmd := ide.cmd }

/-- The form after an answer to what was sent with this IDE. -/
def reset (f : Form) (ide : Ide) : Form :=
  { f with name := "", replicas := some 1, image := ide.image, cmd := ide.cmd, host := "" }

/-- What `submit` sends, if it sends anything. -/
def submit (f : Form) : Option CreateBody :=
  if f.name = "" ∨ f.ns = "" then none
  else some {
    name := f.name
    ns := some f.ns
    replicas := f.replicas
    ide := f.ide.value
    image := f.image
    cmd := if trim f.cmd = "" then none else some (splitSpaces f.cmd)
    host := if f.host = "" then none else some f.host }

end Form

/-- The dialog in its page: the page's namespace and those that it offers, and the IDEs of the
forms that were sent and not answered yet. -/
structure Dialog where
  listing : String
  writable : List String
  form : Form
  pending : List Ide
  deriving DecidableEq

namespace Dialog

/-- The namespace that is chosen by itself. -/
def preferred (listing : String) (writable : List String) : String :=
  if listing ≠ "" ∧ listing ≠ "All" ∧ listing ∈ writable then listing else writable.head?.getD ""

/-- The dialog as it is mounted. -/
def mounted (listing : String) (writable : List String) : Dialog :=
  ⟨listing, writable, { Form.start with ns := preferred listing writable }, []⟩

inductive Act where
  | props (listing : String) (writable : List String)
  | choose (ns : String)
  | name (v : String)
  | replicas (v : String)
  | ide (ide : Ide)
  | image (v : String)
  | cmd (v : String)
  | host (v : String)
  | submit
  | answered (i : Nat)

/-- One step, unless it cannot be taken: an option must be offered, and the button enabled. The
page reports a failure itself, so the dialog takes every answer for a success. -/
def step (D : Dialog) : Act → Option Dialog
  | .props listing writable =>
    some { D with listing := listing, writable := writable, form := { D.form with ns := preferred listing writable } }
  | .choose ns => if ns ∈ D.writable then some { D with form := { D.form with ns := ns } } else none
  | .name v => some { D with form := { D.form with name := v } }
  | .replicas v => some { D with form := { D.form with replicas := Form.toReplicas v } }
  | .ide ide => some { D with form := D.form.handleIDEChange ide }
  | .image v => some { D with form := { D.form with image := v } }
  | .cmd v => some { D with form := { D.form with cmd := v } }
  | .host v => some { D with form := { D.form with host := v } }
  | .submit => if D.writable = [] then none else D.form.submit.map fun _ => { D with pending := D.pending ++ [D.form.ide] }
  | .answered i => D.pending[i]?.map fun ide => { D with form := D.form.reset ide, pending := D.pending.eraseIdx i }

/-- A step that is allowed. -/
def Moves (allowed : Dialog → Act → Prop) (D D' : Dialog) : Prop := ∃ a, allowed D a ∧ D.step a = some D'

end Dialog

/-! ## The request -/

/-- `create` of the hook: the body that `api.create` sends, unless it throws. -/
def create (ix : Option UserIntrospectionResponse) (effectiveNs : String) (req : CreateBody) :
    Except String CreateBody := do
  let candidate := req.ns.orElse fun _ => if effectiveNs ≠ "All" then some effectiveNs else none
  let ns ← match candidate.filter (· ≠ "") with
    | none => match (ix.bind fun ix => ix.namespaces.userCreatable.head?).filter (· ≠ "") with
      | none => .error "Pick a namespace to create the session in."
      | some firstCreatable => .ok firstCreatable
    | some candidate => if can ix candidate "create" then .ok candidate else .error ("Not allowed to create in " ++ candidate)
  if req.name = "" then .error "Name is required."
  else if req.ide = "" ∨ req.image = "" then .error "Profile (ide, image) is required."
  else .ok { req with ns := some ns }

/-- `JSON.stringify`. -/
def CreateBody.json (b : CreateBody) : Json :=
  .obj ([("name", .str b.name)] ++ (b.ns.toList.map fun ns => ("namespace", .str ns)) ++
    [("replicas", match b.replicas with
      | none => .null
      | some n => .int n),
     ("profile", .obj ([("ide", .str b.ide), ("image", .str b.image)] ++
       (b.cmd.toList.map fun words => ("cmd", .arr (words.map .str)))))] ++
    b.host.toList.map fun host => ("networking", .obj [("host", .str host)]))

/-- The request of `api.create`. -/
def createRequest (pr : Claims) (b : CreateBody) : Request where
  method := "POST"
  path := "/api/v1/server/sessions"
  query := []
  body := some b.json
  claims := some pr

/-! ## What is asked for -/

/-- The arguments that the command is split into. -/
def Form.words (f : Form) : List String := if trim f.cmd = "" then [] else splitSpaces f.cmd

/-- The spec that a form asks for. -/
def Form.asked (f : Form) : SessionSpec where
  profile := ⟨f.ide.value, f.image, f.words⟩
  auth := ⟨"none", none⟩
  home := none
  scratch := none
  networking := if f.host = "" then none else some ⟨f.host, "", ∅⟩
  replicas := some ((f.replicas.map Int32.ofNat).getD 1)

/-- A body as the server reads it. -/
def CreateBody.request (b : CreateBody) : SessionCreateRequest where
  name := b.name
  ns := b.ns.getD ""
  profile := ⟨b.ide, b.image, b.cmd.getD []⟩
  auth := none
  home := none
  scratch := none
  network := b.host.map fun host => ⟨host, "", ∅⟩
  replicas := b.replicas.map Int32.ofNat

section

variable {b : CreateBody} {ns : String}

/-- What the UI writes is what Go would write, the members in another order. -/
theorem json_encoded (named : b.ns = some ns) (words : b.cmd ≠ some []) (hosted : b.host ≠ some "")
    (fits : ∀ n ∈ b.replicas, n ≤ 2147483647) : b.json = .obj (string.always "name" b.name ++
      (string.always "namespace" ns ++ (countPointer.always "replicas" b.request.replicas ++
        (profile.always "profile" b.request.profile ++ (netPointer.omitEmpty "networking" b.request.network ++ []))))) := by
  have count : countPointer.encode b.request.replicas = match b.replicas with
      | none => .null
      | some n => .int n := by
    cases replicas : b.replicas with
    | none => simp [CreateBody.request, replicas, countPointer, pointer]
    | some n =>
      have small : (Int32.ofNat n).toInt = n := Int32.toInt_ofNat_of_lt (by have := fits n replicas; omega)
      simp [CreateBody.request, replicas, countPointer, pointer, int32, small]
  have profiled : profile.encode b.request.profile = .obj ([("ide", .str b.ide), ("image", .str b.image)] ++
      (b.cmd.toList.map fun words => ("cmd", .arr (words.map .str)))) := by
    cases cmd : b.cmd with
    | none => simp [CreateBody.request, cmd, profile, always, omitEmpty, string, slice]
    | some ws =>
      have some : ws ≠ [] := fun none => words (cmd.trans (congrArg some none))
      simp [CreateBody.request, cmd, profile, always, omitEmpty, string, slice, some]
  have network : netPointer.omitEmpty "networking" b.request.network ++ [] =
      b.host.toList.map fun host => ("networking", .obj [("host", .str host)]) := by
    cases host : b.host with
    | none => simp [CreateBody.request, host, netPointer, omitEmpty, pointer]
    | some h =>
      have some : h ≠ "" := fun none => hosted (host.trans (congrArg some none))
      simp [CreateBody.request, host, netPointer, netSpec, omitEmpty, pointer, string, stringMap, some]
  rw [CreateBody.json, network, named]
  simp only [always, count, profiled, string]
  rfl

theorem decode_json (named : b.ns = some ns) (words : b.cmd ≠ some []) (hosted : b.host ≠ some "")
    (fits : ∀ n ∈ b.replicas, n ≤ 2147483647) : decodeCreateRequest b.json emptyCreateRequest = (b.request, false) := by
  rw [json_encoded named words hosted fits]
  unfold decodeCreateRequest
  refine (string.decode_always (fields_at 0 (by decide) rfl) (by rfl) _ _).trans <|
    (string.decode_always (fields_at 1 (by decide) rfl) (by rfl) _ _).trans <|
    (countPointer.decode_always (fields_at 7 (by decide) rfl) (by rfl) _ _).trans <|
    (profile.decode_always (fields_at 2 (by decide) rfl) (by rfl) _ _).trans <|
    (netPointer.decode_omitEmpty (fields_at 6 (by decide) rfl) (by rfl) (by rfl) _ _).trans ?_
  simp [decodeStruct, emptyCreateRequest, CreateBody.request, named]

/-- A number of replicas that is too large makes the body unreadable. -/
theorem decode_json_overflow (named : b.ns = some ns) {n : Nat} (many : b.replicas = some n) (large : 2147483647 < n) :
    (decodeCreateRequest b.json emptyCreateRequest).2 = true := by
  have field : ∀ a : SessionCreateRequest, decodePointer 0 decodeInt32 (.int n) a.replicas = (some (a.replicas.getD 0), true) := by
    intro a
    have out : ¬ (-2147483648 ≤ (n : Int) ∧ (n : Int) ≤ 2147483647) := by omega
    simp only [decodePointer, decodeInt32, if_neg out]
  obtain ⟨rest, json⟩ : ∃ rest, b.json = .obj (string.always "name" b.name ++ (string.always "namespace" ns ++
      (("replicas", .int n) :: rest))) := by
    simp [CreateBody.json, named, many, always, string]
  rw [json]
  unfold decodeCreateRequest
  rw [string.decode_always (fields_at 0 (by decide) rfl) (by rfl), string.decode_always (fields_at 1 (by decide) rfl) (by rfl),
    decodeStruct_cons, fields_at 7 (by decide) rfl]
  simp [onField, field]

end

theorem splitSpaces_ne_nil (text : String) : splitSpaces text ≠ [] := by
  have spells : Spells isSpace _ _ := (spells_pieces text.toList).2
  intro none
  rw [splitSpaces, List.map_eq_nil_iff] at none
  rw [none] at spells
  cases spells

theorem trim_eq_empty_iff {text : String} : trim text = "" ↔ Blank isSpace text.toList := by
  rw [trim, ← trim_eq_nil_iff, ← String.toList_inj, String.toList_ofList, String.toList_empty]

/-- The arguments are the words that the command spells. -/
theorem words_spelled {f : Form} (some : ¬ Blank isSpace f.cmd.toList) {ws : List (List Char)}
    (spells : Spells isSpace ws f.cmd.toList) : f.words = ws.map String.ofList := by
  rw [Form.words, if_neg (trim_eq_empty_iff.not.2 some), splitSpaces, pieces_eq_iff.2 spells]

/-! ## From the form to the request -/

section

variable {f : Form} {body req : CreateBody} {ix : Option UserIntrospectionResponse} {effectiveNs : String} {pr : Claims}

/-- What `submit` sends can be read, and asks for what the form says. -/
structure Filled (f : Form) (body : CreateBody) : Prop where
  name : body.name = f.name
  named : body.name ≠ ""
  ns : body.ns = some f.ns
  located : f.ns ≠ ""
  words : body.cmd ≠ some []
  hosted : body.host ≠ some ""
  replicas : body.replicas = f.replicas
  image : body.image = f.image
  spec : body.request.spec = f.asked

theorem submit_filled (sent : f.submit = some body) : Filled f body := by
  unfold Form.submit at sent
  split at sent
  · cases sent
  rename_i complete
  rw [not_or] at complete
  cases Option.some.inj sent
  refine ⟨rfl, complete.1, rfl, complete.2, ?_, ?_, rfl, rfl, ?_⟩
  · dsimp only
    split
    · exact Option.some_ne_none _ ∘ Eq.symm
    · exact fun none => splitSpaces_ne_nil f.cmd (Option.some.inj none)
  · dsimp only
    split
    · exact Option.some_ne_none _ ∘ Eq.symm
    · exact fun none => absurd (Option.some.inj none) ‹_›
  · unfold CreateBody.request SessionCreateRequest.spec Form.asked Form.words
    congr 1
    · dsimp only
      split <;> rfl
    · dsimp only
      split <;> rfl

/-- Where the namespace is chosen, the hook sends the body as it is, if the user may create there. -/
theorem create_checked {ns : String} (named : body.ns = some ns) (located : ns ≠ "")
    (passed : create ix effectiveNs body = .ok req) : req = body ∧ can ix ns "create" = true ∧ body.image ≠ "" := by
  have candidate : (body.ns.orElse fun _ => if effectiveNs ≠ "All" then some effectiveNs else none).filter (· ≠ "") =
      some ns := by
    rw [named]
    simp [located]
  unfold create at passed
  simp only [candidate] at passed
  cases may : can ix ns "create" with
  | false => simp [may, bind, Except.bind] at passed
  | true =>
    simp only [may, if_true, bind, Except.bind] at passed
    split at passed
    · cases passed
    split at passed
    · cases passed
    rename_i complete
    refine ⟨?_, rfl, (not_or.1 complete).2⟩
    cases passed
    rw [← named]

theorem creation_request (filled : Filled f body) (fits : ∀ n ∈ f.replicas, n ≤ 2147483647) :
    creation (createRequest pr body) = some body.request := by
  have read := decode_json filled.ns filled.words filled.hosted (filled.replicas ▸ fits)
  have located : body.request.ns ≠ "" := by simpa [CreateBody.request, filled.ns] using filled.located
  rw [creation, decodeBody, createRequest]
  simp [read, located]

theorem creation_fits (filled : Filled f body) {asked : SessionCreateRequest}
    (read : creation (createRequest pr body) = some asked) : ∀ n ∈ f.replicas, n ≤ 2147483647 := by
  intro n count
  by_contra large
  have failed := decode_json_overflow filled.ns (filled.replicas.trans count) (Nat.lt_of_not_le large)
  rw [creation, decodeBody, createRequest] at read
  simp [failed] at read

end

/-! ## Runs of the dialog -/

namespace Dialog

variable {D D' : Dialog} {a : Act}

/-- The chosen namespace is offered, or there is none to choose. -/
def Offered (D : Dialog) : Prop := D.form.ns = "" ∨ D.form.ns ∈ D.writable

theorem preferred_offered (listing : String) (writable : List String) :
    preferred listing writable = "" ∨ preferred listing writable ∈ writable := by
  unfold preferred
  split
  · rename_i here
    exact .inr here.2.2
  · cases writable with
    | nil => exact .inl rfl
    | cons ns others => exact .inr List.mem_cons_self

theorem step_offered (offered : D.Offered) (next : D.step a = some D') : D'.Offered := by
  cases a with
  | props listing writable =>
    cases next
    exact preferred_offered listing writable
  | choose ns =>
    simp only [step] at next
    split at next
    · cases next
      exact .inr ‹_›
    · cases next
  | submit =>
    simp only [step] at next
    split at next
    · cases next
    · obtain ⟨-, -, rfl⟩ := Option.map_eq_some_iff.1 next
      exact offered
  | answered i =>
    obtain ⟨-, -, rfl⟩ := Option.map_eq_some_iff.1 next
    exact offered
  | _ =>
    cases next
    exact offered

theorem run_offered {allowed : Dialog → Act → Prop} (run : Relation.ReflTransGen (Moves allowed) D D') (offered : D.Offered) :
    D'.Offered := by
  induction run with
  | refl => exact offered
  | tail _ move ih =>
    obtain ⟨a, -, next⟩ := move
    exact step_offered ih next

/-- Image and command are left alone, and so is the IDE while a form is not answered yet. -/
def LeavesStock (D : Dialog) : Act → Prop
  | .image _ => False
  | .cmd _ => False
  | .ide _ => D.pending = []
  | _ => True

/-- The image and the command are those of the IDE, now and after the answers that are to come. -/
structure Stock (D : Dialog) : Prop where
  image : D.form.image = D.form.ide.image
  cmd : D.form.cmd = D.form.ide.cmd
  pending : ∀ ide ∈ D.pending, ide = D.form.ide

theorem step_stock (stock : D.Stock) (leaves : D.LeavesStock a) (next : D.step a = some D') : D'.Stock := by
  obtain ⟨image, cmd, pending⟩ := stock
  cases a with
  | image v => exact leaves.elim
  | cmd v => exact leaves.elim
  | ide ide =>
    cases next
    have none : D.pending = [] := leaves
    exact ⟨rfl, rfl, fun _ mem => absurd mem (none ▸ List.not_mem_nil)⟩
  | choose ns =>
    simp only [step] at next
    split at next
    · cases next
      exact ⟨image, cmd, pending⟩
    · cases next
  | submit =>
    simp only [step] at next
    split at next
    · cases next
    · obtain ⟨-, -, rfl⟩ := Option.map_eq_some_iff.1 next
      refine ⟨image, cmd, fun ide mem => ?_⟩
      rcases List.mem_append.1 mem with before | now
      · exact pending ide before
      · exact List.mem_singleton.1 now
  | answered i =>
    obtain ⟨ide, found, rfl⟩ := Option.map_eq_some_iff.1 next
    have same : ide = D.form.ide := pending ide (List.mem_of_getElem? found)
    subst same
    exact ⟨rfl, rfl, fun ide mem => pending ide (List.mem_of_mem_eraseIdx mem)⟩
  | _ =>
    cases next
    exact ⟨image, cmd, pending⟩

theorem run_stock (run : Relation.ReflTransGen (Moves LeavesStock) D D') (stock : D.Stock) : D'.Stock := by
  induction run with
  | refl => exact stock
  | tail _ move ih =>
    obtain ⟨a, leaves, next⟩ := move
    exact step_stock ih leaves next

end Dialog

/-- The UI and the operator have the same image and command for an IDE. -/
theorem words_stock (ide : Ide) : defaultProfile ⟨ide.value, "", []⟩ =
    ⟨ide.value, ide.image, ({ Form.start with cmd := ide.cmd } : Form).words⟩ := by
  cases ide <;> decide

/-! ## What becomes of it -/

/-- What there is for a Session, as the form says. -/
structure Runs (r : SessionReconciler) (f : Form) (port : Nat) (s : Session) (children : GoMap ChildKey Manifest) : Prop where
  workload : ∃ dep ide, children.lookup ⟨.deployment, s.metadata.ns, childName r s⟩ = some (.deployment dep) ∧
    dep.replicas = (f.replicas.map Int32.ofNat).getD 1 ∧ dep.template.containers = [ide] ∧ ide.image = f.image ∧
    ide.args = f.words ∧ ide.ports = [port]
  service : ∃ svc, children.lookup ⟨.service, s.metadata.ns, childName r s⟩ = some (.service svc) ∧
    svc.ports = [⟨"http", 80, port⟩]
  ingress : f.host ≠ "" → ∃ ing, children.lookup ⟨.ingress, s.metadata.ns, childName r s⟩ = some (.ingress ing) ∧
    ing.rules = [⟨f.host, [⟨"/", "Prefix", ⟨childName r s, 80⟩⟩]⟩]

theorem asked_whole {f : Form} (image : f.image ≠ "") : defaultSpec f.asked = f.asked := by
  have ide : f.ide.value ≠ "" := by cases f.ide <;> decide
  simp [defaultSpec, defaultProfile, Form.asked, ide, image]

theorem desired_runs {r : SessionReconciler} {f : Form} {s : Session} {children : GoMap ChildKey Manifest}
    (spec : s.spec = f.asked) (stored : ∀ m ∈ desired r s, m.key.kind ∈ owned → children.lookup m.key = some m) :
    ∃ port, Runs r f port s children := by
  have mode : f.asked.auth.mode ≠ "oauth2proxy" := show "none" ≠ "oauth2proxy" by decide
  refine ⟨determinePort s, ?_, ?_, ?_⟩
  · have mem : Manifest.deployment (deploymentConfig s (childName r s) (desiredNamesLabels r s).2
        ((f.replicas.map Int32.ofNat).getD 1)) ∈ desired r s := by
      simp [desired, workloadManifests, spec, Form.asked]
    refine ⟨_, mainContainer s (childName r s), stored _ mem (by simp [Manifest.key, owned]), rfl, ?_, ?_, ?_, rfl⟩
    · simp only [deploymentConfig, containers, spec, mode, false_and, if_false]
    · simp only [mainContainer, spec, Form.asked]
    · simp only [mainContainer, spec, Form.asked]
  · have mem : serviceManifest r s ∈ desired r s := by simp [desired]
    refine ⟨_, stored _ mem (by simp [serviceManifest, Manifest.key, owned]), ?_⟩
    simp [serviceConfig, serviceTarget, determinePort, spec, mode]
  · intro host
    have mem : Manifest.ingress (ingressConfig s ⟨f.host, "", ∅⟩ (childName r s) (childName r s)) ∈ desired r s := by
      simp [desired, ingressManifest, spec, Form.asked, host]
    exact ⟨_, stored _ mem (by simp [Manifest.key, owned]), rfl⟩

theorem rests_runs {r : SessionReconciler} {T : Set Kind} {f : Form} {s : Session} {children : GoMap ChildKey Manifest}
    (rests : Rests r T s children) (live : s.deleting = false) (image : f.image ≠ "") (spec : s.spec = f.asked) :
    ∃ port, Runs r f port s children := by
  have whole : (applyDefaults s).spec = f.asked := by rw [applyDefaults_spec, spec, asked_whole image]
  obtain ⟨port, runs⟩ := desired_runs whole fun m mem kind => rests.applied live m mem (.inl kind)
  exact ⟨port, runs.workload, runs.service, runs.ingress⟩

section

variable {χ : Type} {child : ChildApi χ} {d : ServerDeps}
  {P : Pool Job Call Answer (Option HttpResp) (Cluster χ)} {σ : Cluster χ} {i : Nat}
  {t : Thread Job Call Answer (Option HttpResp) (Cluster χ)} {resp : HttpResp}
  {ix : Option UserIntrospectionResponse} {effectiveNs listing : String} {writable : List String} {D : Dialog}
  {body req : CreateBody} {pr : Claims}

/-- **Main result.** What is entered is what is made, and what is made is what runs. Whatever was done
in the dialog before, the namespace of a request it sends is one that is offered, in which the user may
create. If the request succeeds, however the calls of others interleave, then there was no Session of that
name and there is one with the spec that was entered; and where nothing is left to do for a Session with
that spec, its container has the image and the number of replicas that were entered, the command as it was
entered word by word, and behind the host that was entered there is the port of that container. -/
theorem entered_runs {allowed : Dialog → Dialog.Act → Prop}
    (opened : Relation.ReflTransGen (Dialog.Moves allowed) (.mounted listing writable) D)
    (sent : D.form.submit = some body) (passed : create ix effectiveNs body = .ok req)
    (run : Relation.ReflTransGen (Pool.Step (fleet child)) (Pool.initial σ) P) (held : P.threads i = some t)
    (job : t.job = .serve d .sessions (createRequest pr req)) (done : t.rest = .ret (some resp)) :
    (D.form.ns ∈ D.writable ∧ can ix D.form.ns "create" = true) ∧
    (resp.status < 300 → (∀ n ∈ D.form.replicas, n ≤ 2147483647) ∧ ∃ out, resp = ⟨201, .session out⟩ ∧
      out.key = ⟨D.form.ns, D.form.name⟩ ∧ out.spec = D.form.asked ∧
      ∃ ev ∈ t.log, ev.before.sessions.get out.key = none ∧ ev.after.sessions.get out.key = some out) ∧
    (∀ r T s children, Rests r T s children → s.deleting = false → s.spec = D.form.asked →
      ∃ port, Runs r D.form port s children) ∧
    (¬ Blank isSpace D.form.cmd.toList → ∀ ws, Spells isSpace ws D.form.cmd.toList →
      D.form.words = ws.map String.ofList) := by
  have filled := submit_filled sent
  obtain ⟨rfl, may, image⟩ := create_checked filled.ns filled.located passed
  have offered : D.Offered := Dialog.run_offered opened (Dialog.preferred_offered listing writable)
  refine ⟨⟨offered.resolve_left filled.located, may⟩, fun success => ?_, ?_, fun some ws => words_spelled some⟩
  · obtain ⟨asked, read, made⟩ := fleet_result code_makes run held done d _ resp job rfl rfl success
    have fits := creation_fits filled read
    cases read.symm.trans (creation_request filled fits)
    obtain ⟨pre, ev, out, (log : t.log = pre ++ [ev]), -, created, key, spec, free, stored⟩ := made
    refine ⟨fits, out, created, ?_, spec.trans filled.spec, ev, by simp [log], free, stored⟩
    rw [key, CreateBody.request, filled.ns, filled.name]
    rfl
  · intro r T s children rests live spec
    exact rests_runs rests live (filled.image ▸ image) spec

/-- **Main result.** Where image and command are left alone, and the IDE as long as a form is not
answered, a form asks for what the operator would fill in for the IDE alone. -/
theorem stock_asked (opened : Relation.ReflTransGen (Dialog.Moves Dialog.LeavesStock) (.mounted listing writable) D) :
    D.form.asked.profile = defaultProfile ⟨D.form.ide.value, "", []⟩ := by
  have stock := Dialog.run_stock opened ⟨rfl, rfl, fun _ mem => absurd mem List.not_mem_nil⟩
  rw [words_stock, Form.asked, Form.words, stock.image, stock.cmd]
  rfl

end

/-- A form with a name, a command and a host of its own, in the namespace of the page. -/
def filledIn : Form := { Form.start with ns := "ns", name := "a", cmd := "serve  --port 1", host := "h" }

/-- What is known of a user who may create in that namespace. -/
def creator : UserIntrospectionResponse where
  user := ⟨"u", "u", "", [], "", 0, 0, []⟩
  domains := (∅ : GoMap String DomainPermissions).insert "ns" ⟨(∅ : GoMap String Bool).insert "create" true⟩
  namespaces := ⟨["ns"], ["ns"], []⟩
  capabilities := ⟨["ns"], false, false⟩

/-- After one Reconcile nothing is left to do, and the children are as the form says. -/
theorem entered_runs_filledIn : ∃ (P : Pool Job Call Answer (Option HttpResp) (Cluster Manifest)) (out s : Session)
      (port : Nat),
    Relation.ReflTransGen (Pool.Step (fleet replaceApi)) (Pool.initial { Cluster.blank with policy := allowAll }) P ∧
    out.key = ⟨"ns", "a"⟩ ∧ out.spec.profile.cmd = ["serve", "--port", "1"] ∧
    ((Reconcile .default ⟨"ns", "a"⟩).run (answer replaceApi) P.state).2.sessions.get ⟨"ns", "a"⟩ = some s ∧
    Runs .default filledIn port s ((Reconcile .default ⟨"ns", "a"⟩).run (answer replaceApi) P.state).2.children := by
  let σ : Cluster Manifest := { Cluster.blank with policy := allowAll }
  let any : Dialog → Dialog.Act → Prop := fun _ _ => True
  have typed : ∀ {D D' : Dialog} (a : Dialog.Act), D.step a = some D' → Relation.ReflTransGen (Dialog.Moves any) D D' :=
    fun a next => .single ⟨a, trivial, next⟩
  have opened : Relation.ReflTransGen (Dialog.Moves any) (.mounted "ns" ["ns"]) ⟨"ns", ["ns"], filledIn, []⟩ :=
    ((typed (.name "a") rfl).trans (typed (.cmd "serve  --port 1") rfl)).trans (typed (.host "h") rfl)
  let body : CreateBody := ⟨"a", some "ns", some 1, "jupyterlab", "jupyter/minimal-notebook:latest",
    some ["serve", "--port", "1"], some "h"⟩
  have sent : filledIn.submit = some body := by decide
  have passed : create (some creator) "ns" body = .ok body := by rfl
  let job : Job := .serve (.plain "i" false) .sessions (createRequest ⟨"u", []⟩ body)
  obtain ⟨P, t, run, held, asked, done, state⟩ := job.alone σ
  have made : (job.code.run (answer replaceApi) σ).1.map HttpResp.status = some 201 := by decide +kernel
  obtain ⟨resp, answered, created⟩ := Option.map_eq_some_iff.1 made
  rw [answered] at done
  have whole := entered_runs opened sent passed run held asked done
  obtain ⟨out, -, key, spec, -⟩ := (whole.2.1 (by rw [created]; decide)).2
  -- one Reconcile
  let σ' := ((Reconcile .default ⟨"ns", "a"⟩).run (answer replaceApi) (job.code.run (answer replaceApi) σ).2).2
  have settled : (σ'.sessions.get ⟨"ns", "a"⟩).any (fun s => s.deleting = false ∧ s.spec = filledIn.asked ∧
      sessionFinalizer ∈ s.metadata.finalizers ∧
      ∀ m ∈ desired .default (applyDefaults s), σ'.children.lookup m.key = some m) = true := by decide +kernel
  obtain ⟨s, stored, facts⟩ := (Option.any_eq_true ..).1 settled
  obtain ⟨live, entered, marked, applied⟩ := of_decide_eq_true facts
  have rests : Rests .default ∅ s σ'.children := by
    refine ⟨fun deleting => ?_, fun _ => marked, fun _ m mem _ => applied m mem⟩
    cases deleting.symm.trans live
  obtain ⟨port, runs⟩ := whole.2.2.1 .default ∅ s σ'.children rests live entered
  refine ⟨P, out, s, port, run, key, ?_, ?_, ?_⟩
  · rw [spec]
    decide
  · rw [state]
    exact stored
  · rw [state]
    exact runs

/-- A form is sent and answered, and another IDE is chosen and sent then. -/
theorem stock_asked_switched : ∃ D, Relation.ReflTransGen (Dialog.Moves Dialog.LeavesStock) (.mounted "ns" ["ns"]) D ∧
    D.form.ide = .vscode ∧ D.form.asked.profile = defaultProfile ⟨"vscode", "", []⟩ := by
  let f : Form := { Form.start with ns := "ns" }
  let D₀ : Dialog := .mounted "ns" ["ns"]
  let D₁ : Dialog := { D₀ with form := { f with name := "a" } }
  let D₂ : Dialog := { D₁ with pending := [.jupyterlab] }
  let D₃ : Dialog := { D₀ with form := f.handleIDEChange .vscode }
  have named : Dialog.Moves Dialog.LeavesStock D₀ D₁ := ⟨.name "a", trivial, rfl⟩
  have sent : Dialog.Moves Dialog.LeavesStock D₁ D₂ := ⟨.submit, trivial, rfl⟩
  have answered : Dialog.Moves Dialog.LeavesStock D₂ D₀ := ⟨.answered 0, trivial, rfl⟩
  have chosen : Dialog.Moves Dialog.LeavesStock D₀ D₃ := ⟨.ide .vscode, rfl, rfl⟩
  have opened := (((Relation.ReflTransGen.single named).tail sent).tail answered).tail chosen
  exact ⟨D₃, opened, rfl, stock_asked opened⟩

/-- Another IDE is chosen while the form is not answered yet: its image is gone when the answer comes. -/
example : ((Dialog.mounted "ns" ["ns"]).step (.name "a") >>= (·.step .submit) >>= (·.step (.ide .vscode)) >>=
    (·.step (.answered 0))).map (fun D => (D.form.ide, D.form.image)) =
      some (.vscode, "jupyter/minimal-notebook:latest") := by decide

end Codespace.Ui
