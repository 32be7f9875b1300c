import TxPlatform.Deploy.Certificates
import TxPlatform.Lib.Dict
import TxPlatform.Lib.Machine
import TxPlatform.Python.Base64

/-! # The Secrets of the cluster (secrets.py, lifecycle.py:33-41, 81-89, 202-215)

Every bootstrap deploys the certificates and the identity provider again. Its lock lives in the namespace of
the application, so before that exists nothing keeps two bootstraps apart: file operations and requests of
both come in any order, and what one has read may be out of date when it writes. The generated credentials
must never change while the cluster exists, and they do not. Kong and Keycloak must never get a certificate
with another one's key: they do not as long as no deployment comes to the certificate files while another is
there, and they can otherwise (`crossing_is_no_pair`).
-/

namespace TxPlatform

namespace Secrets

open Pki (Certificate Key)

/-! ## Texts and bytes -/

/-- `str.encode()`. -/
def encode (text : String) : List Nat := text.toUTF8.data.toList.map UInt8.toNat

/-- `bytes.decode()`. -/
def decode (bytes : List Nat) : Option String := String.fromUTF8? ⟨(bytes.map UInt8.ofNat).toArray⟩

theorem decode_encode (text : String) : decode (encode text) = some text := by
  have hbytes : (encode text).map UInt8.ofNat = text.toUTF8.data.toList := by
    rw [encode, List.map_map]
    exact (List.map_congr_left fun b _ => UInt8.ofNat_toNat).trans (List.map_id _)
  rw [decode, hbytes, Array.toArray_toList]
  exact dif_pos text.isValidUTF8

theorem encode_lt (text : String) : ∀ b ∈ encode text, b < 256 := by
  intro b hb
  obtain ⟨byte, -, rfl⟩ := List.mem_map.1 hb
  exact byte.toNat_lt

/-! ## Secrets -/

/-- A namespace and a name. -/
abbrev SecretRef := String × String

structure Secret where
  type : String
  data : List (String × List Char)

/-- `existing.data == data`. -/
def sameData (existing data : List (String × List Char)) : Bool :=
  existing.length = data.length ∧ data.all fun (key, value) => existing.lookup key = some value

/-- The body of `ensure_generated_secret`, as the API server stores its `string_data`. -/
def generatedSecret (values : List (String × String)) : Secret :=
  ⟨"Opaque", values.map fun (key, value) => (key, Base64.encode (encode value))⟩

/-- The body of `apply_tls_secret`. -/
def tlsSecret (certPem keyPem : List Nat) : Secret :=
  ⟨"kubernetes.io/tls", [("tls.crt", Base64.encode certPem), ("tls.key", Base64.encode keyPem)]⟩

/-- `read_value` of a Secret. -/
def readValue (secret : Secret) (key : String) : Option String := do
  decode (← Base64.b64decode (← secret.data.lookup key))

/-! ## Requests -/

/-- What a deployment does next: a function of secrets.py from its start, or from the request that writes. -/
inductive Operation where
  | ensureGeneratedSecret (ref : SecretRef) (values : List (String × String))
  | applyTlsSecret (ref : SecretRef) (certPem keyPem : List Nat)
  | create (ref : SecretRef) (body : Secret)
  | replace (ref : SecretRef) (body : Secret)

/-- One request to the API server, and what is left to do; `none` is an `ApiException` (409 or 404). -/
def perform (secrets : Dict SecretRef Secret) : Operation → Option (Dict SecretRef Secret × List Operation)
  | .ensureGeneratedSecret ref values =>
    match secrets.get ref with
    | some _ => some (secrets, [])
    | none => some (secrets, [.create ref (generatedSecret values)])
  | .applyTlsSecret ref certPem keyPem =>
    let body := tlsSecret certPem keyPem
    match secrets.get ref with
    | none => some (secrets, [.create ref body])
    | some existing => some (secrets, if sameData existing.data body.data then [] else [.replace ref body])
  | .create ref body =>
    match secrets.get ref with
    | some _ => none
    | none => some (secrets.set ref body, [])
  | .replace ref body =>
    match secrets.get ref with
    | none => none
    | some _ => some (secrets.set ref body, [])

/-! ## Deployments -/

def edgeTls : SecretRef := ("gateway-system", "edge-tls")
def keycloakTls : SecretRef := ("transaction-platform", "keycloak-tls")
def keycloakAdmin : SecretRef := ("transaction-platform", "keycloak-admin")
def keycloakClients : SecretRef := ("transaction-platform", "keycloak-clients")

/-- `CLIENTS`. -/
def clients : List String := ["scenario-runner", "order-reader"]

/-- What the factories of one `deploy_identity` return. -/
structure Credentials where
  password : String
  client : String → String

/-- The Secrets of `deploy_identity`. -/
def Credentials.values (credentials : Credentials) : List (SecretRef × List (String × String)) :=
  [(keycloakAdmin, [("username", "platform-admin"), ("password", credentials.password)]),
    (keycloakClients, clients.map fun name => (name, credentials.client name))]

/-- `deploy_identity`, up to its Helm release. -/
def deployIdentity (credentials : Credentials) : List Operation :=
  credentials.values.map fun (ref, values) => .ensureGeneratedSecret ref values

/-- Where a deployment is: at the certificate files, or before its requests. -/
inductive Deployment where
  | files (program : Pki.FileProgram (Certificate × Key))
  | requests (operations : List Operation)

def Deployment.atFiles : Deployment → Bool
  | .files _ => true
  | .requests _ => false

/-- The local files, the cluster, and the deployments that were started. -/
structure World where
  pki : Pki.State
  secrets : Dict SecretRef Secret := ∅
  deployments : List Deployment := []

inductive Label where
  /-- `deploy_certificates` starts. -/
  | certificates (clock : Pki.Clock)
  | identity (credentials : Credentials)
  /-- The next file operation of a deployment. -/
  | file (deployment : Nat)
  /-- The next request of a deployment. -/
  | request (deployment : Nat)
  /-- A deployment is killed, or ends in an exception of its own. -/
  | kill (deployment : Nat)
  /-- `destroy`. A deployment that goes on sends its requests to the next cluster. -/
  | destroy (purge : Bool)

def Label.IsDestroy : Label → Prop
  | .destroy _ => True
  | _ => False

/-- The step comes to the certificate files or removes them. -/
def Label.takesFiles : Label → Bool
  | .certificates _ => true
  | .destroy purge => purge
  | .identity _ | .file _ | .request _ | .kill _ => false

/-- A deployment that is at the certificate files has them for itself. -/
def OneAtATime (before : World) (label : Label) (_ : World) : Prop :=
  label.takesFiles = true → ∀ deployment ∈ before.deployments, deployment.atFiles = false

instance (before : World) (label : Label) (after : World) : Decidable (OneAtATime before label after) :=
  inferInstanceAs (Decidable (_ → _))

/-- The next request of some operations: an exception ends the deployment. -/
def request (secrets : Dict SecretRef Secret) (operation : Operation) (rest : List Operation) :
    Dict SecretRef Secret × List Operation :=
  match perform secrets operation with
  | some (secrets, more) => (secrets, more ++ rest)
  | none => (secrets, [])

/-- The values some deployment generated for a Secret. -/
def Generated (labels : List Label) (ref : SecretRef) (values : List (String × String)) : Prop :=
  ∃ credentials : Credentials, .identity credentials ∈ labels ∧ (ref, values) ∈ credentials.values

def IsGenerated (labels : List Label) (ref : SecretRef) (body : Secret) : Prop :=
  ∃ values, body = generatedSecret values ∧ Generated labels ref values

theorem sameData_tls {certPem keyPem certPem' keyPem' : List Nat}
    (h : sameData (tlsSecret certPem keyPem).data (tlsSecret certPem' keyPem').data = true) :
    tlsSecret certPem keyPem = tlsSecret certPem' keyPem' := by
  simp [sameData, tlsSecret, List.lookup_cons] at h
  simp [tlsSecret, h]

theorem tls_notMem_identity {ref : SecretRef} (h : ref ∈ [edgeTls, keycloakTls]) :
    ref ∉ [keycloakAdmin, keycloakClients] := by
  have key : ∀ ref ∈ [edgeTls, keycloakTls], ref ∉ [keycloakAdmin, keycloakClients] := by decide
  exact key ref h

theorem tls_not_generated {labels : List Label} {ref : SecretRef} (h : ref ∈ [edgeTls, keycloakTls]) (body : Secret) :
    ¬ IsGenerated labels ref body := by
  rintro ⟨values, -, credentials, -, hmem⟩
  refine tls_notMem_identity h ?_
  simp only [Credentials.values, List.mem_cons, Prod.mk.injEq, List.not_mem_nil, or_false] at hmem ⊢
  exact hmem.imp And.left And.left

theorem readValue_generated {values : List (String × String)} (h : (values.map (·.1)).Nodup) {entry : String × String}
    (hentry : entry ∈ values) : readValue (generatedSecret values) entry.1 = some entry.2 := by
  have hlookup : (generatedSecret values).data.lookup entry.1 = some (Base64.encode (encode entry.2)) := by
    rw [generatedSecret]
    induction values with
    | nil => cases hentry
    | cons first values ih =>
      obtain ⟨hfirst, hnodup⟩ : first.1 ∉ values.map (·.1) ∧ (values.map (·.1)).Nodup := List.nodup_cons.1 h
      obtain rfl | hentry := List.mem_cons.1 hentry
      · simp
      · have hkey : entry.1 ∈ values.map (·.1) := List.mem_map_of_mem hentry
        have hne : (entry.1 == first.1) = false := beq_eq_false_iff_ne.2 fun heq => hfirst (heq ▸ hkey)
        simp only [List.map_cons, List.lookup_cons, hne]
        exact ih hnodup hentry
  have hdecode : Base64.b64decode (Base64.encode (encode entry.2)) = some (encode entry.2) := by
    have hrepad := Base64.b64decode_repad (encode_lt entry.2) (.inr rfl)
    rwa [Base64.repad_encode] at hrepad
  simp only [readValue, hlookup, Option.bind_eq_bind, Option.bind_some, hdecode, decode_encode]

theorem nodup_values {credentials : Credentials} {ref : SecretRef} {values : List (String × String)}
    (h : (ref, values) ∈ credentials.values) : (values.map (·.1)).Nodup := by
  simp only [Credentials.values, List.mem_cons, Prod.mk.injEq, List.not_mem_nil, or_false] at h
  obtain ⟨-, rfl⟩ | ⟨-, rfl⟩ := h
  · simp
  · simp [clients]

/-! ## What a request may write -/

section Written
variable {Good : List Nat → List Nat → Prop}

variable (Good) in
/-- A TLS Secret of a certificate and a key with this property. -/
def IsTls (ref : SecretRef) (body : Secret) : Prop :=
  ref ∈ [edgeTls, keycloakTls] ∧ ∃ certPem keyPem, body = tlsSecret certPem keyPem ∧ Good certPem keyPem

variable (Good) in
/-- Generated Secrets are created and never replaced. -/
def Operation.Planned (labels : List Label) : Operation → Prop
  | .ensureGeneratedSecret ref values => Generated labels ref values
  | .applyTlsSecret ref certPem keyPem => ref ∈ [edgeTls, keycloakTls] ∧ Good certPem keyPem
  | .create ref body => IsGenerated labels ref body ∨ IsTls Good ref body
  | .replace ref body => IsTls Good ref body

variable (Good) in
structure Inv (labels : List Label) (world : World) : Prop where
  secrets : ∀ ref body, world.secrets.get ref = some body → IsGenerated labels ref body ∨ IsTls Good ref body
  planned : ∀ operations, .requests operations ∈ world.deployments → ∀ operation ∈ operations, operation.Planned Good labels

section Perform
variable {labels : List Label} {secrets after : Dict SecretRef Secret} {operation : Operation} {more : List Operation}

theorem perform_planned (h : operation.Planned Good labels) (hperform : perform secrets operation = some (after, more)) :
    ∀ next ∈ more, next.Planned Good labels := by
  cases operation with
  | ensureGeneratedSecret ref values =>
    simp only [perform] at hperform
    split at hperform <;> cases hperform
    · simp
    · simpa using .inl ⟨values, rfl, h⟩
  | applyTlsSecret ref certPem keyPem =>
    have htls : IsTls Good ref (tlsSecret certPem keyPem) := ⟨h.1, certPem, keyPem, rfl, h.2⟩
    simp only [perform] at hperform
    split at hperform <;> cases hperform
    · simpa using .inr htls
    · split
      · simp
      · exact List.forall_mem_singleton.2 htls
  | create ref body | replace ref body =>
    simp only [perform] at hperform
    split at hperform <;> cases hperform
    simp

theorem perform_secrets (h : operation.Planned Good labels)
    (hsecrets : ∀ ref body, secrets.get ref = some body → IsGenerated labels ref body ∨ IsTls Good ref body)
    (hperform : perform secrets operation = some (after, more)) :
    ∀ ref body, after.get ref = some body → IsGenerated labels ref body ∨ IsTls Good ref body := by
  cases operation with
  | ensureGeneratedSecret ref values | applyTlsSecret ref certPem keyPem =>
    simp only [perform] at hperform
    split at hperform <;> cases hperform <;> exact hsecrets
  | create ref body =>
    simp only [perform] at hperform
    split at hperform <;> cases hperform
    intro other stored hget
    rw [Dict.get_set] at hget
    split at hget
    · rename_i heq
      cases hget
      exact heq ▸ h
    · exact hsecrets other stored hget
  | replace ref body =>
    simp only [perform] at hperform
    split at hperform <;> cases hperform
    intro other stored hget
    rw [Dict.get_set] at hget
    split at hget
    · rename_i heq
      cases hget
      exact .inr (heq ▸ h)
    · exact hsecrets other stored hget

/-- What is there is only changed by a request that replaces it. -/
theorem perform_keeps (h : operation.Planned Good labels) (hperform : perform secrets operation = some (after, more))
    {ref : SecretRef} (href : ref ∈ [keycloakAdmin, keycloakClients]) {body : Secret} (hget : secrets.get ref = some body) :
    after.get ref = some body := by
  cases operation with
  | ensureGeneratedSecret | applyTlsSecret =>
    simp only [perform] at hperform
    split at hperform <;> cases hperform <;> exact hget
  | create other new =>
    simp only [perform] at hperform
    split at hperform
    · cases hperform
    · rename_i hnone
      cases hperform
      have hne : ref ≠ other := by
        rintro rfl
        rw [hnone] at hget
        cases hget
      rw [Dict.get_set, if_neg hne, hget]
  | replace other new =>
    have hne : ref ≠ other := by
      rintro rfl
      exact tls_notMem_identity h.1 href
    simp only [perform] at hperform
    split at hperform <;> cases hperform
    rw [Dict.get_set, if_neg hne, hget]

end Perform

/-- Nothing else than the new deployment is new. -/
theorem requests_append {deployments : List Deployment} {deployment : Deployment} {P : List Operation → Prop}
    (h : ∀ operations, .requests operations ∈ deployments → P operations)
    (hnew : ∀ operations, deployment = .requests operations → P operations) :
    ∀ operations, .requests operations ∈ deployments ++ [deployment] → P operations := by
  intro operations hmem
  obtain hmem | hmem := List.mem_append.1 hmem
  · exact h operations hmem
  · exact hnew operations (List.mem_singleton.1 hmem).symm

theorem requests_set {deployments : List Deployment} {deployment : Deployment} {P : List Operation → Prop} (i : Nat)
    (h : ∀ operations, .requests operations ∈ deployments → P operations)
    (hnew : ∀ operations, deployment = .requests operations → P operations) :
    ∀ operations, .requests operations ∈ deployments.set i deployment → P operations := by
  intro operations hmem
  obtain hmem | rfl := List.mem_or_eq_of_mem_set hmem
  · exact h operations hmem
  · exact hnew operations rfl

theorem files_of_append {deployments : List Deployment} {operations : List Operation} {i : Nat}
    {program : Pki.FileProgram (Certificate × Key)}
    (h : (deployments ++ [.requests operations])[i]? = some (.files program)) :
    deployments[i]? = some (.files program) := by
  rcases Nat.lt_trichotomy i deployments.length with hlt | rfl | hgt
  · rwa [List.getElem?_append_left hlt] at h
  · rw [List.getElem?_concat_length] at h
    cases h
  · rw [List.getElem?_eq_none (by simp; omega)] at h
    cases h

theorem files_of_set {deployments : List Deployment} {operations : List Operation} {d i : Nat}
    {program : Pki.FileProgram (Certificate × Key)}
    (h : (deployments.set d (.requests operations))[i]? = some (.files program)) :
    deployments[i]? = some (.files program) := by
  rw [List.getElem?_set] at h
  split at h
  · split at h <;> cases h
  · exact h

end Written

/-! ## The platform -/

/-- How certificates and keys are written to their files. -/
class Pem where
  cert : Certificate → List Nat
  key : Key → List Nat

section Deployments
variable [Pem]

/-- How a deployment goes on after a file operation. -/
def afterFile : Pki.FileProgram (Certificate × Key) → Deployment
  | .done (cert, key) =>
    .requests ([edgeTls, keycloakTls].map fun ref => .applyTlsSecret ref (Pem.cert cert) (Pem.key key))
  | .raised => .requests []
  | .ask request next => .files (.ask request next)

def platform : Machine World Label where
  step world
    | .certificates clock =>
      if world.pki.now ≤ clock.start then
        some { world with
          pki := { world.pki with newKey := world.pki.newKey + 2, now := clock.start }
          deployments := world.deployments ++ [.files (Pki.deployCertificates world.pki.newKey clock)] }
      else none
    | .identity credentials =>
      some { world with deployments := world.deployments ++ [.requests (deployIdentity credentials)] }
    | .file deployment =>
      match world.deployments[deployment]? with
      | some (.files program) =>
        let (files, program) := program.step Pki.perform world.pki.files
        some { world with
          pki := { world.pki with files }, deployments := world.deployments.set deployment (afterFile program) }
      | _ => none
    | .request deployment =>
      match world.deployments[deployment]? with
      | some (.requests (operation :: rest)) =>
        let (secrets, operations) := request world.secrets operation rest
        some { world with secrets, deployments := world.deployments.set deployment (.requests operations) }
      | _ => none
    | .kill deployment => some { world with deployments := world.deployments.set deployment (.requests []) }
    | .destroy purge =>
      some { world with pki := if purge then { world.pki with files := {} } else world.pki, secrets := ∅ }

/-- Nothing is there yet. -/
def start (now : Int) : World := { pki := Pki.emptyFolder now }

/-- A certificate for the platform with its own key. -/
def IsPair (certPem keyPem : List Nat) : Prop :=
  ∃ leaf : Certificate, certPem = Pem.cert leaf ∧ keyPem = Pem.key leaf.publicKey ∧
    Pki.requiredDnsNames ⊆ leaf.dnsNames ∧ Pki.requiredIpAddresses ⊆ leaf.ipAddresses

theorem isPair_of_taken {now : Int} {pair : Certificate × Key} {files : Pki.PkiFiles} (h : Pki.Taken now pair files) :
    IsPair (Pem.cert pair.1) (Pem.key pair.2) :=
  ⟨pair.1, rfl, by rw [h.own], h.names⟩

/-! ## Steps -/

section Step
variable {Good : List Nat → List Nat → Prop} {labels : List Label} {world after : World}

/-- What a file operation does: the program at the files takes its next step. -/
theorem step_file {deployment : Nat} (hstep : platform.step world (.file deployment) = some after) :
    ∃ program files rest, world.deployments[deployment]? = some (.files program) ∧
      program.step Pki.perform world.pki.files = (files, rest) ∧
      after = { world with
        pki := { world.pki with files }, deployments := world.deployments.set deployment (afterFile rest) } := by
  simp only [platform] at hstep
  split at hstep
  · rename_i program hnext
    rcases hprogram : program.step Pki.perform world.pki.files with ⟨files, rest⟩
    rw [hprogram] at hstep
    cases hstep
    exact ⟨program, files, rest, hnext, hprogram, rfl⟩
  · cases hstep

/-- Whatever a deployment takes from the files has to be good; the rest follows. -/
theorem inv_step (h : Inv Good labels world) {label : Label} (hlabel : label ∈ labels)
    (htaken : ∀ (deployment : Nat) program files pair, world.deployments[deployment]? = some (.files program) →
      program.step Pki.perform world.pki.files = (files, .done pair) → Good (Pem.cert pair.1) (Pem.key pair.2))
    (hstep : platform.step world label = some after) : Inv Good labels after := by
  cases label with
  | certificates clock =>
    simp only [platform] at hstep
    split at hstep <;> cases hstep
    exact ⟨h.secrets, requests_append h.planned (by rintro _ ⟨⟩)⟩
  | identity credentials =>
    cases hstep
    refine ⟨h.secrets, requests_append h.planned ?_⟩
    rintro _ ⟨⟩
    exact List.forall_mem_map.2 fun entry hentry => ⟨credentials, hlabel, hentry⟩
  | file deployment =>
    obtain ⟨program, files, rest, hnext, hprogram, rfl⟩ := step_file hstep
    refine ⟨h.secrets, requests_set _ h.planned fun operations hrest => ?_⟩
    cases rest with
    | done pair =>
      cases hrest
      exact List.forall_mem_map.2 fun ref href => ⟨href, htaken deployment program files pair hnext hprogram⟩
    | raised =>
      cases hrest
      simp
    | ask request next => cases hrest
  | request deployment =>
    simp only [platform] at hstep
    split at hstep
    · rename_i operation rest hnext
      obtain ⟨hoperation, hrest⟩ := List.forall_mem_cons.1 (h.planned _ (List.mem_of_getElem? hnext))
      cases hstep
      unfold request
      split
      · rename_i secrets more hperform
        refine ⟨perform_secrets hoperation h.secrets hperform, requests_set _ h.planned ?_⟩
        rintro _ ⟨⟩
        exact List.forall_mem_append.2 ⟨perform_planned hoperation hperform, hrest⟩
      · refine ⟨h.secrets, requests_set _ h.planned ?_⟩
        rintro _ ⟨⟩
        simp
    · cases hstep
  | kill deployment =>
    cases hstep
    refine ⟨h.secrets, requests_set _ h.planned ?_⟩
    rintro _ ⟨⟩
    simp
  | destroy purge =>
    cases hstep
    exact ⟨fun ref body hget => by simp at hget, h.planned⟩

omit [Pem] in
theorem inv_start (now : Int) : Inv Good labels (start now) :=
  ⟨fun ref body hget => by simp [start] at hget, fun operations hmem => by simp [start] at hmem⟩

/-- A generated Secret stays as it is, except where the cluster goes. -/
theorem keeps_step (h : Inv Good labels world) {label : Label} (hlabel : ¬ label.IsDestroy)
    (hstep : platform.step world label = some after)
    {ref : SecretRef} (href : ref ∈ [keycloakAdmin, keycloakClients]) {secret : Secret} (hget : world.secrets.get ref = some secret) :
    after.secrets.get ref = some secret := by
  cases label with
  | certificates | file =>
    simp only [platform] at hstep
    split at hstep <;> cases hstep
    exact hget
  | identity | kill =>
    cases hstep
    exact hget
  | request deployment =>
    simp only [platform] at hstep
    split at hstep
    · rename_i operation rest hnext
      cases hstep
      unfold request
      split
      · rename_i hperform
        exact perform_keeps (h.planned _ (List.mem_of_getElem? hnext) _ List.mem_cons_self) hperform href hget
      · exact hget
    · cases hstep
  | destroy purge => exact absurd trivial hlabel

end Step

/-! ## One deployment at the files -/

/-- The files heal at every moment, and the deployment that is at them, if there is one, will take a pair. -/
structure Guarded (world : World) : Prop where
  healing : Pki.Healing world.pki.files world.pki.newKey world.pki.now
  alone : ∀ (i : Nat) program, world.deployments[i]? = some (.files program) →
    program.Alone Pki.perform (Pki.Healing · world.pki.newKey world.pki.now) (Pki.Taken world.pki.now) world.pki.files
  one : ∀ (i j : Nat) program other, world.deployments[i]? = some (.files program) → world.deployments[j]? = some (.files other) → i = j

section Guard
variable {world after : World}

omit [Pem] in
theorem guarded_start (now : Int) : Guarded (start now) :=
  ⟨Pki.healing_emptyFolder now, fun i program h => by simp [start] at h, fun i j program other h => by simp [start] at h⟩

omit [Pem] in
/-- Nobody is at the files. -/
theorem Guarded.of_free (hhealing : Pki.Healing world.pki.files world.pki.newKey world.pki.now)
    (hfree : ∀ deployment ∈ world.deployments, deployment.atFiles = false) : Guarded world := by
  have hnone : ∀ (i : Nat) program, world.deployments[i]? ≠ some (.files program) := fun i program h =>
    absurd (hfree _ (List.mem_of_getElem? h)) (by simp [Deployment.atFiles])
  exact ⟨hhealing, fun i program h => absurd h (hnone i program), fun i j program other h => absurd h (hnone i program)⟩

omit [Pem] in
/-- A step that leaves the files alone, and nobody new at them. -/
theorem Guarded.of_same (h : Guarded world) (hpki : after.pki = world.pki)
    (hfiles : ∀ (i : Nat) program, after.deployments[i]? = some (.files program) → world.deployments[i]? = some (.files program)) :
    Guarded after := by
  refine ⟨by rw [hpki]; exact h.healing, fun i program hi => ?_, fun i j program other hi hj => ?_⟩
  · rw [hpki]
    exact h.alone i program (hfiles i program hi)
  · exact h.one i j program other (hfiles i program hi) (hfiles j other hj)

/-- A deployment that has the files for itself keeps them healing. -/
theorem guarded_file (h : Guarded world) {deployment : Nat} {program : Pki.FileProgram (Certificate × Key)}
    (hnext : world.deployments[deployment]? = some (.files program))
    {files : Pki.PkiFiles} {rest : Pki.FileProgram (Certificate × Key)}
    (hprogram : program.step Pki.perform world.pki.files = (files, rest)) :
    Guarded { world with
      pki := { world.pki with files }, deployments := world.deployments.set deployment (afterFile rest) } ∧
    rest.Alone Pki.perform (Pki.Healing · world.pki.newKey world.pki.now) (Pki.Taken world.pki.now) files := by
  obtain ⟨hheals, hrest⟩ := (h.alone deployment program hnext).step h.healing
  rw [hprogram] at hheals hrest
  -- the others are not at the files
  have hhere : ∀ i other, (world.deployments.set deployment (afterFile rest))[i]? = some (.files other) →
      i = deployment ∧ other = rest := by
    intro i other hi
    rw [List.getElem?_set] at hi
    split at hi
    · rename_i heq
      split at hi
      · refine ⟨heq.symm, ?_⟩
        cases rest with
        | done pair => cases hi
        | raised => cases hi
        | ask request next => exact (Deployment.files.inj (Option.some.inj hi)).symm
      · cases hi
    · rename_i hne
      exact absurd (h.one deployment i program other hnext hi) hne
  refine ⟨⟨hheals, fun i other hi => ?_, fun i j other other' hi hj => ?_⟩, hrest⟩
  · rw [(hhere i other hi).2]
    exact hrest
  · rw [(hhere i other hi).1, (hhere j other' hj).1]

theorem guarded_step (h : Guarded world) {label : Label} (hone : OneAtATime world label after)
    (hstep : platform.step world label = some after) : Guarded after := by
  cases label with
  | certificates clock =>
    simp only [platform] at hstep
    split at hstep <;> cases hstep
    rename_i hnow
    have hfree := hone rfl
    have hheals := h.healing.later (Nat.le_refl _) hnow
    have hlast : ∀ i program, (world.deployments ++ [.files (Pki.deployCertificates world.pki.newKey clock)])[i]? =
        some (.files program) → i = world.deployments.length ∧ program = Pki.deployCertificates world.pki.newKey clock := by
      intro i program hi
      rcases Nat.lt_trichotomy i world.deployments.length with hlt | rfl | hgt
      · rw [List.getElem?_append_left hlt] at hi
        exact absurd (hfree _ (List.mem_of_getElem? hi)) (by simp [Deployment.atFiles])
      · rw [List.getElem?_concat_length] at hi
        exact ⟨rfl, (Deployment.files.inj (Option.some.inj hi)).symm⟩
      · rw [List.getElem?_eq_none (by simp; omega)] at hi
        cases hi
    refine ⟨hheals.later (Nat.le_add_right _ 2) (Int.le_refl _), fun i program hi => ?_, fun i j program other hi hj => ?_⟩
    · rw [(hlast i program hi).2]
      exact Pki.deployCertificates_alone hheals
    · rw [(hlast i program hi).1, (hlast j other hj).1]
  | identity credentials =>
    cases hstep
    exact h.of_same rfl fun i program => files_of_append
  | file deployment =>
    obtain ⟨program, files, rest, hnext, hprogram, rfl⟩ := step_file hstep
    exact (guarded_file h hnext hprogram).1
  | request deployment =>
    simp only [platform] at hstep
    split at hstep <;> cases hstep
    exact h.of_same rfl fun i program => files_of_set
  | kill deployment =>
    cases hstep
    exact h.of_same rfl fun i program => files_of_set
  | destroy purge =>
    cases hstep
    cases purge
    · exact h.of_same rfl fun i program => id
    · refine .of_free ?_ (hone rfl)
      constructor <;> rintro _ ⟨⟩

/-- What is taken from the files is a pair. -/
theorem Guarded.taken (h : Guarded world) {deployment : Nat} {program : Pki.FileProgram (Certificate × Key)}
    {files : Pki.PkiFiles}
    {pair : Certificate × Key} (hnext : world.deployments[deployment]? = some (.files program))
    (hprogram : program.step Pki.perform world.pki.files = (files, .done pair)) : Pki.Taken world.pki.now pair files :=
  (guarded_file h hnext hprogram).2

theorem paired_step {labels : List Label} (h : Guarded world ∧ Inv IsPair labels world) {label : Label}
    (hlabel : label ∈ labels)
    (hone : OneAtATime world label after) (hstep : platform.step world label = some after) :
    Guarded after ∧ Inv IsPair labels after :=
  ⟨guarded_step h.1 hone hstep,
    inv_step h.2 hlabel (fun _ _ _ _ hnext hprogram => isPair_of_taken (h.1.taken hnext hprogram)) hstep⟩

theorem paired_run {labels : List Label} {now : Int} {before : List Label} (hlabels : before ⊆ labels)
    (hone : platform.Along OneAtATime (start now) before) (hrun : platform.run (start now) before = some world) :
    Guarded world ∧ Inv IsPair labels world :=
  Machine.run_inv_of_along (C := fun before label after => label ∈ labels ∧ OneAtATime before label after)
    (fun _ _ _ hinv hstep hlabel => paired_step hinv hlabel.1 hlabel.2 hstep) ⟨guarded_start now, inv_start now⟩
    (Machine.along_and (Machine.along_of_labels hlabels) hone) hrun

/-- Steps that take the files from nobody. -/
theorem paired_replicate {labels : List Label} (h : Guarded world ∧ Inv IsPair labels world) {label : Label} {n : Nat}
    (hlabel : label ∈ labels) (htakes : label.takesFiles = false) (hrun : platform.run world (List.replicate n label) = some after) :
    Guarded after ∧ Inv IsPair labels after := by
  refine Machine.run_inv_of_along (I := fun world => Guarded world ∧ Inv IsPair labels world)
    (C := fun _ taken _ => taken = label) (fun _ _ _ hinv hstep heq => ?_) h
    (Machine.along_of_labels fun taken htaken => List.eq_of_mem_replicate htaken) hrun
  subst heq
  exact paired_step hinv hlabel (fun hfiles => absurd hfiles (by simp [htakes])) hstep

end Guard

/-! ## A deployment that nothing disturbs -/

/-- Its file operations. -/
theorem run_files {world : World} {deployment : Nat} {I : Pki.PkiFiles → Prop}
    {Q : Certificate × Key → Pki.PkiFiles → Prop}
    {program : Pki.FileProgram (Certificate × Key)} (h : program.Alone Pki.perform I Q world.pki.files)
    (hnext : world.deployments[deployment]? = some (afterFile program)) :
    ∃ operations pair files, platform.run world (List.replicate operations (.file deployment)) = some { world with
        pki := { world.pki with files }, deployments := world.deployments.set deployment (afterFile (.done pair)) } ∧
      Q pair files := by
  have hlength : deployment < world.deployments.length := (List.getElem?_eq_some_iff.1 hnext).1
  induction program generalizing world with
  | done pair =>
    refine ⟨0, pair, world.pki.files, ?_, h⟩
    obtain ⟨_, hget⟩ := List.getElem?_eq_some_iff.1 hnext
    rw [← hget, List.set_getElem_self]
    rfl
  | raised => exact h.elim
  | ask request next ih =>
    let stepped : World := { world with
      pki := { world.pki with files := (Pki.perform world.pki.files request).1 }
      deployments := world.deployments.set deployment (afterFile (next (Pki.perform world.pki.files request).2)) }
    have hstep : platform.step world (.file deployment) = some stepped := by
      simp only [platform, hnext, afterFile, Program.step, stepped]
    have hlater : stepped.deployments[deployment]? = some (afterFile (next (Pki.perform world.pki.files request).2)) :=
      List.getElem?_set_self hlength
    obtain ⟨operations, pair, files, hrun, hQ⟩ :=
      ih (Pki.perform world.pki.files request).2 (h.2 : Program.Alone _ _ _ _ stepped.pki.files) hlater
        (by simpa [stepped] using hlength)
    refine ⟨operations + 1, pair, files, ?_, hQ⟩
    rw [List.replicate_succ, Machine.run_of_step hstep, hrun]
    simp only [List.set_set, stepped]

theorem step_request {world : World} {deployment : Nat} {operation : Operation} {rest more : List Operation}
    (hnext : world.deployments[deployment]? = some (.requests (operation :: rest))) {secrets : Dict SecretRef Secret}
    (hperform : perform world.secrets operation = some (secrets, more)) :
    platform.step world (.request deployment) =
      some { world with secrets, deployments := world.deployments.set deployment (.requests (more ++ rest)) } := by
  simp only [platform, hnext, request, hperform]

/-- `apply_tls_secret` takes at most two requests, changes no other Secret and leaves what it was given. -/
theorem apply_settles {labels : List Label} {world : World} (h : Inv IsPair labels world) {deployment : Nat}
    {ref : SecretRef}
    (href : ref ∈ [edgeTls, keycloakTls]) {certPem keyPem : List Nat} {rest : List Operation}
    (hnext : world.deployments[deployment]? = some (.requests (.applyTlsSecret ref certPem keyPem :: rest))) :
    ∃ requests ≤ 2, ∃ secrets, platform.run world (List.replicate requests (.request deployment)) =
        some { world with secrets, deployments := world.deployments.set deployment (.requests rest) } ∧
      secrets.get ref = some (tlsSecret certPem keyPem) ∧ ∀ other ≠ ref, secrets.get other = world.secrets.get other := by
  have hlength : deployment < world.deployments.length := (List.getElem?_eq_some_iff.1 hnext).1
  have hset : ∀ other ≠ ref, (world.secrets.set ref (tlsSecret certPem keyPem)).get other = world.secrets.get other :=
    fun other hne => by rw [Dict.get_set, if_neg hne]
  have hget : (world.secrets.set ref (tlsSecret certPem keyPem)).get ref = some (tlsSecret certPem keyPem) := by
    rw [Dict.get_set, if_pos rfl]
  -- both ways of writing end the same way
  have hwrite : ∀ operation : Operation,
      perform world.secrets (.applyTlsSecret ref certPem keyPem) = some (world.secrets, [operation]) →
      perform world.secrets operation = some (world.secrets.set ref (tlsSecret certPem keyPem), []) →
      platform.run world (List.replicate 2 (.request deployment)) = some { world with
        secrets := world.secrets.set ref (tlsSecret certPem keyPem)
        deployments := world.deployments.set deployment (.requests rest) } := by
    intro operation hfirst hsecond
    have hthen : ({ world with deployments := world.deployments.set deployment (.requests ([operation] ++ rest)) } :
        World).deployments[deployment]? = some (.requests (operation :: rest)) := List.getElem?_set_self hlength
    rw [List.replicate_succ, Machine.run_of_step (step_request hnext hfirst), List.replicate_one,
      Machine.run_of_step (step_request hthen hsecond)]
    simp only [Machine.run, List.set_set, List.nil_append]
  cases hexisting : world.secrets.get ref with
  | none =>
    refine ⟨2, Nat.le_refl _, _, hwrite (.create ref (tlsSecret certPem keyPem)) ?_ ?_, hget, hset⟩
    · simp only [perform, hexisting]
    · simp only [perform, hexisting]
  | some existing =>
    obtain ⟨-, certPem', keyPem', rfl, -⟩ := (h.secrets ref existing hexisting).resolve_left (tls_not_generated href existing)
    by_cases hsame : sameData (tlsSecret certPem' keyPem').data (tlsSecret certPem keyPem).data = true
    · have hunchanged : perform world.secrets (.applyTlsSecret ref certPem keyPem) = some (world.secrets, []) := by
        simp only [perform, hexisting, if_pos hsame]
      refine ⟨1, by omega, world.secrets, ?_, sameData_tls hsame ▸ hexisting, fun _ _ => rfl⟩
      rw [List.replicate_one, Machine.run_of_step (step_request hnext hunchanged)]
      rfl
    · refine ⟨2, Nat.le_refl _, _, hwrite (.replace ref (tlsSecret certPem keyPem)) ?_ ?_, hget, hset⟩
      · simp only [perform, hexisting, if_neg hsame]
      · simp only [perform, hexisting]

/-! ## Runs -/

/-- **A certificate never gets another one's key**: wherever earlier deployments were killed and however requests
overlap, a TLS Secret holds a certificate for the platform and the key of this certificate, as long as
deployments come to the certificate files one at a time. -/
theorem tls_pairs {now : Int} {labels : List Label} {world : World} (hrun : platform.run (start now) labels = some world)
    (hone : platform.Along OneAtATime (start now) labels)
    {ref : SecretRef} (href : ref ∈ [edgeTls, keycloakTls]) {secret : Secret} (hget : world.secrets.get ref = some secret) :
    ∃ certPem keyPem, secret = tlsSecret certPem keyPem ∧ IsPair certPem keyPem :=
  have hinv := (paired_run (List.Subset.refl labels) hone hrun).2
  ((hinv.secrets ref secret hget).resolve_left (tls_not_generated href secret)).2

/-- **Generated credentials are never rotated**: while the cluster exists a generated Secret stays as it is,
and all its values are those of one deployment. -/
theorem credentials_kept {now : Int} {before later : List Label} {world after : World}
    (hbefore : platform.run (start now) before = some world) (hlater : platform.run world later = some after)
    (hdestroy : ∀ label ∈ later, ¬ label.IsDestroy) {ref : SecretRef} (href : ref ∈ [keycloakAdmin, keycloakClients])
    {secret : Secret} (hget : world.secrets.get ref = some secret) :
    after.secrets.get ref = some secret ∧ ∃ credentials values, .identity credentials ∈ before ∧
      (ref, values) ∈ credentials.values ∧ ∀ entry ∈ values, readValue secret entry.1 = some entry.2 := by
  -- whatever the files hold, certificates go to other Secrets
  have hany : ∀ {labels : List Label}, before ⊆ labels → Inv (fun _ _ => True) labels world := fun hlabels =>
    Machine.run_inv_of_along (fun _ _ _ hinv hstep hlabel => inv_step hinv hlabel (fun _ _ _ _ _ _ => trivial) hstep)
      (inv_start now) (Machine.along_of_labels hlabels) hbefore
  constructor
  · have hkeeps : Inv (fun _ _ => True) (before ++ later) after ∧ after.secrets.get ref = some secret := by
      refine Machine.run_inv_of_along
        (I := fun world => Inv (fun _ _ => True) (before ++ later) world ∧ world.secrets.get ref = some secret)
        (fun world label after hinv hstep hlabel => ?_)
        ⟨hany (List.subset_append_left before later), hget⟩
        (Machine.along_of_labels fun label hlabel => And.intro hlabel (hdestroy label hlabel)) hlater
      exact ⟨inv_step hinv.1 (List.mem_append_right before hlabel.1) (fun _ _ _ _ _ _ => trivial) hstep,
        keeps_step hinv.1 hlabel.2 hstep href hinv.2⟩
    exact hkeeps.2
  · obtain ⟨values, rfl, credentials, hlabel, hvalues⟩ :=
      ((hany (List.Subset.refl before)).secrets ref secret hget).resolve_right fun htls => tls_notMem_identity htls.1 href
    exact ⟨credentials, values, hlabel, hvalues, fun entry => readValue_generated (nodup_values hvalues)⟩

/-- **A deployment settles**: when nothing runs beside it, both Secrets end with the certificate on disk and its
key after its file operations and four requests at most, whatever was there before. -/
theorem certificates_settle {now : Int} {labels : List Label} {world : World}
    (hrun : platform.run (start now) labels = some world)
    (hone : platform.Along OneAtATime (start now) labels)
    (hfree : ∀ deployment ∈ world.deployments, deployment.atFiles = false) {clock : Pki.Clock} {after : World}
    (hstep : platform.step world (.certificates clock) = some after) :
    ∃ operations, ∃ requests ≤ 4, ∃ final leaf,
      platform.run after (List.replicate operations (.file world.deployments.length) ++
        List.replicate requests (.request world.deployments.length)) = some final ∧
      final.deployments = world.deployments ++ [.requests []] ∧ final.pki.files.tlsCert = some leaf ∧
      final.pki.files.tlsKey = some leaf.publicKey ∧ Pki.renewBefore ≤ leaf.notAfter - clock.start ∧
      ∀ ref ∈ [edgeTls, keycloakTls], final.secrets.get ref = some (tlsSecret (Pem.cert leaf) (Pem.key leaf.publicKey)) := by
  let all : List Label :=
    .certificates clock :: .file world.deployments.length :: .request world.deployments.length :: labels
  have hinv : Guarded world ∧ Inv IsPair all world := paired_run (fun label hlabel => by simp [all, hlabel]) hone hrun
  have hafter := paired_step hinv List.mem_cons_self (fun _ => hfree) hstep
  have hlast : world.deployments.length < after.deployments.length ∧
      after.deployments[world.deployments.length]? = some (.files (Pki.deployCertificates world.pki.newKey clock)) ∧
      after.pki.now = clock.start ∧ ∀ deployment, after.deployments.set world.deployments.length deployment =
        world.deployments ++ [deployment] := by
    simp only [platform] at hstep
    split at hstep <;> cases hstep
    simp
  obtain ⟨hlength, hfiles, hclock, hset⟩ := hlast
  obtain ⟨operations, ⟨leaf, key⟩, files, hrunFiles, htaken⟩ := run_files (hafter.1.alone _ _ hfiles) hfiles
  have hkey : key = leaf.publicKey := htaken.own
  subst hkey
  have hread := paired_replicate hafter (by simp [all]) rfl hrunFiles
  obtain ⟨first, hfirst, edge, hrunFirst, hedge, -⟩ :=
    apply_settles hread.2 (by decide) (List.getElem?_set_self hlength)
  have hmiddle := paired_replicate hread (by simp [all]) rfl hrunFirst
  obtain ⟨second, hsecond, keycloak, hrunSecond, hkeycloak, hothers⟩ :=
    apply_settles hmiddle.2 (by decide) (List.getElem?_set_self (by simpa using hlength))
  have hrequests := Machine.run_append.trans ((congrArg (Option.bind · _) hrunFirst).trans hrunSecond)
  rw [List.replicate_append_replicate] at hrequests
  have hruns := Machine.run_append.trans ((congrArg (Option.bind · _) hrunFiles).trans hrequests)
  refine ⟨operations, first + second, by omega, _, leaf, hruns, ?_, htaken.cert, htaken.key, ?_, ?_⟩
  · exact (congrArg (List.set · _ _) (List.set_set ..)).trans ((List.set_set ..).trans (hset _))
  · exact hclock ▸ htaken.left
  · exact List.forall_mem_cons.2 ⟨(hothers edgeTls (by decide)).trans hedge, List.forall_mem_singleton.2 hkeycloak⟩

end Deployments

/-! ## Two bootstraps at once -/

@[reducible] def Pem.plain : Pem where
  cert leaf := [leaf.publicKey, leaf.signedBy]
  key key := [key]

/-- A clock that stands still. -/
def midnight : Pki.Clock := ⟨0, 0, 0, Int.le_refl _, Int.le_refl _⟩

/-- Both find no administrator; the second gets a 409 when it writes one. -/
def overlapping : List Label :=
  [.identity ⟨"first", fun _ => "one"⟩, .identity ⟨"second", fun _ => "two"⟩, .request 0, .request 1, .request 0]

/-- Their certificates one after the other, their requests side by side: both find no certificate in the cluster,
the second gets a 409. -/
def overlappingCertificates : List Label :=
  .certificates midnight :: (List.replicate 8 (.file 0) ++ .certificates midnight :: (List.replicate 7 (.file 1) ++
    [.request 0, .request 1, .request 0, .request 1]))

/-- The second comes to the files when the first has written its key, and writes both files before the first
writes its certificate. -/
def crossing : List Label :=
  .certificates midnight :: (List.replicate 5 (.file 0) ++ .certificates midnight :: (List.replicate 6 (.file 1) ++
    .file 0 :: (List.replicate 2 (.file 1) ++ [.request 1, .request 1])))

/-- A third, after them. -/
def afterwards : List Label := .certificates midnight :: (List.replicate 7 (.file 2) ++ [.request 2])

theorem tls_pairs_overlapping : letI := Pem.plain
    ∃ world secret, platform.run (start 0) overlappingCertificates = some world ∧ world.secrets.get edgeTls = some secret ∧
      ∃ certPem keyPem, secret = tlsSecret certPem keyPem ∧ IsPair certPem keyPem :=
  letI := Pem.plain
  ⟨_, tlsSecret [1, 0] [1], rfl, rfl,
    @tls_pairs Pem.plain 0 overlappingCertificates _ rfl (by decide) edgeTls (by decide) _ rfl⟩

/-- With both at the files the certificate of one ends up with the key of the other, and every later deployment
takes them for a pair. -/
theorem crossing_is_no_pair : letI := Pem.plain
    ∃ world after, platform.run (start 0) crossing = some world ∧ platform.run world afterwards = some after ∧
      world.secrets.get edgeTls = some (tlsSecret [1, 0] [3]) ∧ after.secrets.get edgeTls = some (tlsSecret [1, 0] [3]) ∧
      ¬ IsPair [1, 0] [3] :=
  letI := Pem.plain
  ⟨_, _, rfl, rfl, rfl, rfl, by
    rintro ⟨leaf, hcert, hkey, -⟩
    obtain ⟨hpublic, -⟩ := List.cons.inj hcert
    obtain ⟨hown, -⟩ := List.cons.inj hkey
    omega⟩

theorem credentials_kept_overlapping : letI := Pem.plain
    ∃ world after secret, platform.run (start 0) overlapping = some world ∧
      platform.run world [.request 1, .request 0, .request 0] = some after ∧ after.secrets.get keycloakAdmin = some secret ∧
      readValue secret "password" = some "first" :=
  letI := Pem.plain
  ⟨_, _, generatedSecret [("username", "platform-admin"), ("password", "first")], rfl, rfl,
    (@credentials_kept Pem.plain 0 overlapping [.request 1, .request 0, .request 0] _ _ rfl rfl (by simp [Label.IsDestroy])
      keycloakAdmin (by decide) _ rfl).1, by decide⟩

theorem certificates_settle_overlapping : letI := Pem.plain
    ∃ world after, platform.run (start 0) overlappingCertificates = some world ∧
      platform.step world (.certificates midnight) = some after ∧
      ∃ operations, ∃ requests ≤ 4, ∃ final leaf,
        platform.run after (List.replicate operations (.file world.deployments.length) ++
          List.replicate requests (.request world.deployments.length)) = some final ∧
        final.deployments = world.deployments ++ [.requests []] ∧ final.pki.files.tlsCert = some leaf ∧
        final.pki.files.tlsKey = some leaf.publicKey ∧ Pki.renewBefore ≤ leaf.notAfter - 0 ∧
        ∀ ref ∈ [edgeTls, keycloakTls], final.secrets.get ref = some (tlsSecret (Pem.cert leaf) (Pem.key leaf.publicKey)) :=
  letI := Pem.plain
  ⟨_, _, rfl, rfl, @certificates_settle Pem.plain 0 overlappingCertificates _ rfl (by decide) (by decide) midnight _ rfl⟩

end Secrets

end TxPlatform
