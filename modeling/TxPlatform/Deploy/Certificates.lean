import TxPlatform.Deploy.Pki
import TxPlatform.Lib.Program

/-! # `deploy_certificates` at the local files (lifecycle.py:32-36, pki.py:182-199)

`ensure` and the two reads after it are single file operations, and no lock keeps a second deployment from
the files in between. `ensure_heals` is about calls one after the other; `deployCertificates_alone` says the
same of the operations of a deployment that is alone at the files.
-/

namespace TxPlatform

namespace Pki

/-! ## File operations -/

/-- Whose key and certificate. -/
inductive Owner where
  | ca
  | tls

inductive FileRequest where
  /-- `_load_cert`. -/
  | loadCert (owner : Owner)
  /-- `is_file` or `read_bytes` of a key. -/
  | loadKey (owner : Owner)
  | write (write : Write)

@[reducible] def FileRequest.Answer : FileRequest → Type
  | .loadCert _ => Option Certificate
  | .loadKey _ => Option Key
  | .write _ => Unit

abbrev FileProgram := Program FileRequest FileRequest.Answer

def perform (files : PkiFiles) : (request : FileRequest) → PkiFiles × request.Answer
  | .loadCert .ca => (files, files.caCert)
  | .loadCert .tls => (files, files.tlsCert)
  | .loadKey .ca => (files, files.caKey)
  | .loadKey .tls => (files, files.tlsKey)
  | .write write => (files.write write, ())

section Programs
variable {α : Type}

def writing : List Write → FileProgram α → FileProgram α
  | [], program => program
  | write :: writes, program => .ask (.write write) fun _ => writing writes program

/-- The first half of `ensure`. -/
def ensureCaSteps (newKey : Key) (clock : Clock) (next : Certificate → Key → FileProgram α) : FileProgram α :=
  let create := writing (createCa newKey clock.ca).2 (next (createCa newKey clock.ca).1 newKey)
  .ask (.loadCert .ca) fun
    | none => create
    | some cert => .ask (.loadKey .ca) fun found =>
      if decide (factsIfKey (some cert) found none) clock.start false = .reuse then
        .ask (.loadKey .ca) fun
          | some key => next cert key
          -- the file was there a moment ago
          | none => .raised
      else create

/-- Its second half. -/
def ensureLeafSteps (caCert : Certificate) (caKey newKey : Key) (clock : Clock) (next : FileProgram α) : FileProgram α :=
  let create := writing (createLeaf newKey caKey clock.leaf) next
  .ask (.loadCert .tls) fun
    | none => create
    | some leaf => .ask (.loadKey .tls) fun found =>
      if decide (factsIfKey (some leaf) found (some caCert)) clock.start true = .reuse then next else create

/-- What is read for the Secrets. -/
def readPair : FileProgram (Certificate × Key) :=
  .ask (.loadCert .tls) fun
    | none => .raised
    | some cert => .ask (.loadKey .tls) fun
      | none => .raised
      | some key => .done (cert, key)

/-- `deploy_certificates` up to its Secrets. -/
def deployCertificates (newKey : Key) (clock : Clock) : FileProgram (Certificate × Key) :=
  ensureCaSteps newKey clock fun caCert caKey => ensureLeafSteps caCert caKey (newKey + 1) clock readPair

end Programs

/-! ## Alone at the files -/

section Alone
variable {α : Type} {I : PkiFiles → Prop} {Q : α → PkiFiles → Prop} {files : PkiFiles}

theorem alone_writing {writes : List Write} {program : FileProgram α}
    (hwrites : ∀ done, I (files.writeAll (writes.take done))) (h : program.Alone perform I Q (files.writeAll writes)) :
    (writing writes program).Alone perform I Q files := by
  induction writes generalizing files with
  | nil => exact h
  | cons write writes ih => exact ⟨hwrites 1, ih (fun done => hwrites (done + 1)) h⟩

/-- Alone, the first half is `ensureCa`. -/
theorem alone_ensureCaSteps {newKey : Key} {clock : Clock} {next : Certificate → Key → FileProgram α} (hfiles : I files)
    {action : Action} {cert : Certificate} {key : Key} {writes : List Write}
    (hcall : ensureCa files newKey clock = (action, cert, key, writes))
    (hwrites : ∀ done, I (files.writeAll (writes.take done)))
    (h : (next cert key).Alone perform I Q (files.writeAll writes)) :
    (ensureCaSteps newKey clock next).Alone perform I Q files := by
  refine ⟨hfiles, ?_⟩
  cases hcert : files.caCert with
  | none =>
    simp only [ensureCa, hcert] at hcall
    cases hcall
    simp only [perform, hcert]
    exact alone_writing hwrites h
  | some found =>
    simp only [perform, hcert]
    refine ⟨hfiles, ?_⟩
    change Program.Alone perform I Q
      (if decide (factsIfKey (some found) files.caKey none) clock.start false = .reuse then _ else _) files
    by_cases hreuse : decide (factsIfKey (some found) files.caKey none) clock.start false = .reuse
    · obtain ⟨_, hknown, -⟩ := decide_eq_reuse_iff.1 hreuse
      obtain ⟨_, keyFound, -, hkey, -⟩ := factsIfKey_eq_some_iff.1 hknown
      simp only [ensureCa, hcert, hreuse] at hcall
      simp only [hkey] at hcall
      cases hcall
      rw [if_pos hreuse]
      refine ⟨hfiles, ?_⟩
      simp only [perform, hkey]
      exact h
    · rw [if_neg hreuse]
      simp only [ensureCa, hcert] at hcall
      split at hcall
      · rename_i haction _ _
        exact absurd haction hreuse
      · cases hcall
        exact alone_writing hwrites h

/-- Alone, the second half is `ensureLeaf`. -/
theorem alone_ensureLeafSteps {caCert : Certificate} {caKey newKey : Key} {clock : Clock} {next : FileProgram α}
    (hfiles : I files) {action : Action} {writes : List Write}
    (hcall : ensureLeaf files caCert caKey newKey clock = (action, writes))
    (hwrites : ∀ done, I (files.writeAll (writes.take done))) (h : next.Alone perform I Q (files.writeAll writes)) :
    (ensureLeafSteps caCert caKey newKey clock next).Alone perform I Q files := by
  refine ⟨hfiles, ?_⟩
  cases hcert : files.tlsCert with
  | none =>
    simp only [ensureLeaf, hcert] at hcall
    cases hcall
    simp only [perform, hcert]
    exact alone_writing hwrites h
  | some leaf =>
    simp only [perform, hcert]
    refine ⟨hfiles, ?_⟩
    change Program.Alone perform I Q
      (if decide (factsIfKey (some leaf) files.tlsKey (some caCert)) clock.start true = .reuse then _ else _) files
    by_cases hreuse : decide (factsIfKey (some leaf) files.tlsKey (some caCert)) clock.start true = .reuse
    · rw [if_pos hreuse]
      simp only [ensureLeaf, hcert, hreuse, ne_eq, not_true_eq_false, if_false] at hcall
      cases hcall
      exact h
    · rw [if_neg hreuse]
      simp only [ensureLeaf, hcert, ne_eq, hreuse, not_false_eq_true, if_true] at hcall
      cases hcall
      exact alone_writing hwrites h

end Alone

/-- What a deployment takes from the files for its Secrets: a certificate for the platform that is not due, and
its key. -/
structure Taken (now : Int) (pair : Certificate × Key) (files : PkiFiles) : Prop where
  cert : files.tlsCert = some pair.1
  key : files.tlsKey = some pair.2
  own : pair.2 = pair.1.publicKey
  names : requiredDnsNames ⊆ pair.1.dnsNames ∧ requiredIpAddresses ⊆ pair.1.ipAddresses
  left : renewBefore ≤ pair.1.notAfter - now

theorem alone_readPair {I : PkiFiles → Prop} {files : PkiFiles} {now : Int} (hfiles : I files) (h : Consistent files)
    (hleft : LeftAt files now) : readPair.Alone perform I (Taken now) files := by
  obtain ⟨ca, leaf, rfl, -, hnames⟩ := h
  exact ⟨hfiles, hfiles, rfl, rfl, rfl, hnames, hleft leaf (.inr rfl)⟩

/-- **Alone at the files** a deployment leaves them healing after every operation and takes a pair, wherever
earlier deployments were killed. -/
theorem deployCertificates_alone {files : PkiFiles} {newKey : Key} {clock : Clock}
    (h : Healing files newKey clock.start) :
    (deployCertificates newKey clock).Alone perform (Healing · (newKey + 2) clock.start) (Taken clock.start) files := by
  rcases hca : ensureCa files newKey clock with ⟨caAction, ca, caKey, caWrites⟩
  obtain ⟨hcaHeals, hready⟩ := ensureCa_heals h hca
  have hcaDone : Healing (files.writeAll caWrites) (newKey + 1) clock.start := by
    have hall := hcaHeals caWrites.length
    rwa [List.take_length] at hall
  rcases hleaf : ensureLeaf (files.writeAll caWrites) ca caKey (newKey + 1) clock with ⟨leafAction, leafWrites⟩
  obtain ⟨hleafHeals, hconsistent, hleft⟩ := ensureLeaf_heals hcaDone hready hleaf
  have hlater : ∀ {files}, Healing files (newKey + 1) clock.start → Healing files (newKey + 2) clock.start :=
    fun hheals => hheals.later (Nat.le_succ _) (Int.le_refl _)
  have hdone := hleafHeals leafWrites.length
  rw [List.take_length] at hdone
  refine alone_ensureCaSteps (h.later (Nat.le_add_right newKey 2) (Int.le_refl _)) hca (fun done => hlater (hcaHeals done)) ?_
  exact alone_ensureLeafSteps (hlater hcaDone) hleaf hleafHeals (alone_readPair hdone hconsistent hleft)

end Pki

end TxPlatform
