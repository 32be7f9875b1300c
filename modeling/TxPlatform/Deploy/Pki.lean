import Mathlib.Tactic.Common
import TxPlatform.Lib.Machine

/-! # The local certificate authority (pki.py)

`ensure` reads the four files, decides about each certificate and writes at most four files, each as
a whole. A call may crash between two writes, so a key and its certificate can disagree on disk; the
next call must not take such a pair for a good one. What saves it: a certificate is only replaced
when it is missing, about to expire or from another CA, and each of these stays true until the
certificate itself is written (`Healing`).

Keys are numbered in the order in which they are generated, so a new key is one that was never used.
A signature verifies under the certificate of the key that made it and under no other. Times are in
microseconds; a certificate keeps whole seconds.
-/

namespace TxPlatform

namespace Pki

/-! ## Certificates -/

abbrev Key := Nat

def second : Int := 1000000
def day : Int := 86400 * second

def caValidity : Int := 365 * day
def leafValidity : Int := 90 * day
def renewBefore : Int := 14 * day

def requiredDnsNames : List String := ["localhost"]
def requiredIpAddresses : List String := ["127.0.0.1"]

structure Certificate where
  publicKey : Key
  signedBy : Key
  notAfter : Int
  dnsNames : List String := []
  ipAddresses : List String := []

inductive Action where
  | reuse
  | create
  | renew
  deriving DecidableEq

structure CertificateFacts where
  notAfter : Int
  dnsNames : List String
  ipAddresses : List String
  issuedByCurrentCa : Bool

def decide (facts : Option CertificateFacts) (now : Int) (checkNames : Bool) : Action :=
  match facts with
  | none => .create
  | some facts =>
    if facts.notAfter - now < renewBefore then .renew
    else if !facts.issuedByCurrentCa then .renew
    else if checkNames ∧ (!requiredDnsNames.all (· ∈ facts.dnsNames)
        ∨ !requiredIpAddresses.all (· ∈ facts.ipAddresses)) then .renew
    else .reuse

/-- `_facts`. Every CA has the same name, so `verify_directly_issued_by` is up to the signature. -/
def factsOf (cert : Certificate) (caCert : Option Certificate) : CertificateFacts where
  notAfter := cert.notAfter
  dnsNames := cert.dnsNames
  ipAddresses := cert.ipAddresses
  issuedByCurrentCa := caCert.all fun ca => cert.signedBy = ca.publicKey

/-! ## Files -/

structure PkiFiles where
  caKey : Option Key := none
  caCert : Option Certificate := none
  tlsKey : Option Key := none
  tlsCert : Option Certificate := none

inductive Write where
  | caKey (key : Key)
  | caCert (cert : Certificate)
  | tlsKey (key : Key)
  | tlsCert (cert : Certificate)

namespace PkiFiles

def write (files : PkiFiles) : Write → PkiFiles
  | .caKey key => { files with caKey := some key }
  | .caCert cert => { files with caCert := some cert }
  | .tlsKey key => { files with tlsKey := some key }
  | .tlsCert cert => { files with tlsCert := some cert }

def writeAll (files : PkiFiles) (writes : List Write) : PkiFiles := writes.foldl write files

end PkiFiles

/-- The time a certificate keeps. -/
def wholeSeconds (time : Int) : Int := time / second * second

/-- `_create_ca`, with the key it generates. -/
def createCa (key : Key) (now : Int) : Certificate × List Write :=
  let cert : Certificate := { publicKey := key, signedBy := key, notAfter := wholeSeconds (now + caValidity) }
  (cert, [.caKey key, .caCert cert])

/-- `_create_leaf`, with the key it generates. -/
def createLeaf (key caKey : Key) (now : Int) : List Write :=
  [.tlsKey key, .tlsCert {
    publicKey := key
    signedBy := caKey
    notAfter := wholeSeconds (now + leafValidity)
    dnsNames := requiredDnsNames
    ipAddresses := requiredIpAddresses }]

/-! ## `ensure` -/

/-- What `_now()` returns in one call: at its start, for a new CA and for a new leaf. -/
structure Clock where
  start : Int
  ca : Int
  leaf : Int
  start_le : start ≤ ca
  ca_le : ca ≤ leaf

structure PkiResult where
  caAction : Action
  leafAction : Action

/-- The facts of a certificate whose key file is there. -/
def factsIfKey (cert : Option Certificate) (key : Option Key) (caCert : Option Certificate) :
    Option CertificateFacts :=
  match cert, key with
  | some cert, some _ => some (factsOf cert caCert)
  | _, _ => none

/-- The CA in force: the one on disk with the key on disk, or a new one. -/
def ensureCa (files : PkiFiles) (newKey : Key) (clock : Clock) : Action × Certificate × Key × List Write :=
  let action := decide (factsIfKey files.caCert files.caKey none) clock.start false
  match action, files.caCert, files.caKey with
  | .reuse, some cert, some key => (action, cert, key, [])
  | _, _, _ =>
    let (cert, writes) := createCa newKey clock.ca
    (action, cert, newKey, writes)

def ensureLeaf (files : PkiFiles) (caCert : Certificate) (caKey newKey : Key) (clock : Clock) :
    Action × List Write :=
  let action := decide (factsIfKey files.tlsCert files.tlsKey (some caCert)) clock.start true
  (action, if action ≠ .reuse then createLeaf newKey caKey clock.leaf else [])

/-- `ensure`: what it writes, in order, and what it reports. Two new keys are set aside for it. -/
def ensure (files : PkiFiles) (newKey : Key) (clock : Clock) : List Write × PkiResult :=
  let (caAction, caCert, caKey, caWrites) := ensureCa files newKey clock
  let (leafAction, leafWrites) := ensureLeaf (files.writeAll caWrites) caCert caKey (newKey + 1) clock
  (caWrites ++ leafWrites, ⟨caAction, leafAction⟩)

/-! ## Calls one after the other -/

structure State where
  files : PkiFiles := {}
  newKey : Key := 0
  now : Int

/-- A call, complete or cut off after so many writes. -/
structure Call where
  clock : Clock
  crashAfter : Option Nat

/-- The writes of a call that reach the disk. -/
def Call.writes (call : Call) (state : State) : List Write :=
  let writes := (ensure state.files state.newKey call.clock).1
  match call.crashAfter with
  | none => writes
  | some done => writes.take done

/-- No call starts before an earlier one did. -/
def calls : Machine State Call where
  step state call :=
    if state.now ≤ call.clock.start then
      some ⟨state.files.writeAll (call.writes state), state.newKey + 2, call.clock.start⟩
    else none

/-! ## What a completed call leaves -/

/-- The keys match their certificates, the leaf is issued by the CA and carries the required names. -/
def Consistent (files : PkiFiles) : Prop :=
  ∃ ca leaf : Certificate,
    files = ⟨some ca.publicKey, some ca, some leaf.publicKey, some leaf⟩ ∧
    leaf.signedBy = ca.publicKey ∧ requiredDnsNames ⊆ leaf.dnsNames ∧ requiredIpAddresses ⊆ leaf.ipAddresses

/-- Both certificates have at least `renewBefore` left. -/
def LeftAt (files : PkiFiles) (now : Int) : Prop :=
  ∀ cert, files.caCert = some cert ∨ files.tlsCert = some cert → renewBefore ≤ cert.notAfter - now

/-- A completed call leaves consistent files that are good for now, and a call that follows while
they still are changes nothing. -/
def Settles (_ : State) (call : Call) (after : State) : Prop :=
  call.crashAfter = none → Consistent after.files ∧ LeftAt after.files call.clock.start ∧
    ∀ clock : Clock, LeftAt after.files clock.start →
      ensure after.files after.newKey clock = ([], ⟨.reuse, .reuse⟩)

/-! ## Pairs that heal -/

/-- A certificate that every later call replaces. -/
def Stale (cert : Certificate) (now : Int) : Prop := cert.notAfter - now < renewBefore

/-- A leaf that every later call replaces. -/
def Replaced (files : PkiFiles) (leaf : Certificate) (now : Int) : Prop :=
  Stale leaf now ∨ ∀ ca, files.caCert = some ca → leaf.signedBy ≠ ca.publicKey

/-- What holds after every write of every call. A certificate on disk has a key file, and where the
key is another one the next call replaces the certificate. -/
structure Healing (files : PkiFiles) (newKey : Key) (now : Int) : Prop where
  ca : ∀ cert, files.caCert = some cert →
    ∃ key, files.caKey = some key ∧ (cert.publicKey = key ∨ Stale cert now)
  caUsed : ∀ cert, files.caCert = some cert → cert.publicKey < newKey
  leaf : ∀ cert, files.tlsCert = some cert →
    ∃ key, files.tlsKey = some key ∧ (cert.publicKey = key ∨ Replaced files cert now)
  leafUsed : ∀ cert, files.tlsCert = some cert → cert.signedBy < newKey
  names : ∀ cert, files.tlsCert = some cert →
    requiredDnsNames ⊆ cert.dnsNames ∧ requiredIpAddresses ⊆ cert.ipAddresses

section Healing
variable {files : PkiFiles} {newKey newKey' : Key} {now now' : Int}

theorem Stale.later {cert : Certificate} (h : Stale cert now) (hnow : now ≤ now') : Stale cert now' := by
  simp only [Stale] at h ⊢
  omega

theorem Replaced.later {leaf : Certificate} (h : Replaced files leaf now) (hnow : now ≤ now') :
    Replaced files leaf now' := h.imp_left (·.later hnow)

theorem Healing.later (h : Healing files newKey now) (hkey : newKey ≤ newKey') (hnow : now ≤ now') :
    Healing files newKey' now' where
  ca cert hcert := by
    obtain ⟨key, hk, hpair⟩ := h.ca cert hcert
    exact ⟨key, hk, hpair.imp_right (·.later hnow)⟩
  caUsed cert hcert := Nat.lt_of_lt_of_le (h.caUsed cert hcert) hkey
  leaf cert hcert := by
    obtain ⟨key, hk, hpair⟩ := h.leaf cert hcert
    exact ⟨key, hk, hpair.imp_right (·.later hnow)⟩
  leafUsed cert hcert := Nat.lt_of_lt_of_le (h.leafUsed cert hcert) hkey
  names := h.names

/-- The key of a CA that is replaced anyway. -/
theorem Healing.writeCaKey (h : Healing files newKey now)
    (hold : ∀ cert, files.caCert = some cert → Stale cert now) (key : Key) :
    Healing (files.write (.caKey key)) newKey now where
  ca cert hcert := ⟨key, rfl, .inr (hold cert hcert)⟩
  caUsed := h.caUsed
  leaf := h.leaf
  leafUsed := h.leafUsed
  names := h.names

/-- The certificate of the key on disk, which signed no leaf yet. -/
theorem Healing.writeCaCert (h : Healing files newKey now) {cert : Certificate}
    (hkey : files.caKey = some cert.publicKey) (hused : cert.publicKey < newKey)
    (hnew : ∀ leaf, files.tlsCert = some leaf → leaf.signedBy ≠ cert.publicKey) :
    Healing (files.write (.caCert cert)) newKey now where
  ca := by
    rintro _ ⟨⟩
    exact ⟨_, hkey, .inl rfl⟩
  caUsed := by
    rintro _ ⟨⟩
    exact hused
  leaf leaf hleaf := by
    obtain ⟨key, hk, -⟩ := h.leaf leaf hleaf
    refine ⟨key, hk, .inr (.inr ?_)⟩
    rintro _ ⟨⟩
    exact hnew leaf hleaf
  leafUsed := h.leafUsed
  names := h.names

theorem Healing.writeTlsKey (h : Healing files newKey now)
    (hold : ∀ leaf, files.tlsCert = some leaf → Replaced files leaf now) (key : Key) :
    Healing (files.write (.tlsKey key)) newKey now where
  ca := h.ca
  caUsed := h.caUsed
  leaf leaf hleaf := ⟨key, rfl, .inr (hold leaf hleaf)⟩
  leafUsed := h.leafUsed
  names := h.names

theorem Healing.writeTlsCert (h : Healing files newKey now) {leaf : Certificate}
    (hkey : files.tlsKey = some leaf.publicKey) (hused : leaf.signedBy < newKey)
    (hnames : requiredDnsNames ⊆ leaf.dnsNames ∧ requiredIpAddresses ⊆ leaf.ipAddresses) :
    Healing (files.write (.tlsCert leaf)) newKey now where
  ca := h.ca
  caUsed := h.caUsed
  leaf := by
    rintro _ ⟨⟩
    exact ⟨_, hkey, .inl rfl⟩
  leafUsed := by
    rintro _ ⟨⟩
    exact hused
  names := by
    rintro _ ⟨⟩
    exact hnames

end Healing

/-! ## Decisions -/

theorem all_mem_iff {required names : List String} :
    (required.all fun name => name ∈ names) = true ↔ required ⊆ names := by
  simp [List.subset_def]

theorem decide_eq_reuse_iff {facts : Option CertificateFacts} {now : Int} {checkNames : Bool} :
    decide facts now checkNames = .reuse ↔ ∃ known, facts = some known ∧ renewBefore ≤ known.notAfter - now ∧
      known.issuedByCurrentCa = true ∧ (checkNames = true →
        requiredDnsNames ⊆ known.dnsNames ∧ requiredIpAddresses ⊆ known.ipAddresses) := by
  cases facts with
  | none => simp [decide]
  | some known =>
    simp only [decide, Option.some.injEq, exists_eq_left', Bool.not_eq_true', ← Bool.not_eq_true, all_mem_iff]
    split
    · rename_i hstale
      exact iff_of_false (fun h => by cases h) fun h => absurd h.1 (by omega)
    · rename_i hleft
      split
      · rename_i hissued
        exact iff_of_false (fun h => by cases h) fun h => hissued h.2.1
      · rename_i hissued
        split
        · rename_i hnames
          refine iff_of_false (fun h => by cases h) fun h => ?_
          obtain ⟨hdns, hips⟩ := h.2.2 hnames.1
          exact hnames.2.elim (fun hmissing => hmissing hdns) fun hmissing => hmissing hips
        · rename_i hnames
          refine iff_of_true rfl ⟨by omega, not_not.1 hissued, fun hcheck => ?_⟩
          exact not_or.1 (fun hmissing => hnames ⟨hcheck, hmissing⟩) |>.imp not_not.1 not_not.1

/-- A certificate is known when its key file is there. -/
theorem factsIfKey_eq_some_iff {cert : Option Certificate} {key : Option Key} {caCert : Option Certificate}
    {known : CertificateFacts} : factsIfKey cert key caCert = some known ↔
      ∃ c k, cert = some c ∧ key = some k ∧ factsOf c caCert = known := by
  cases cert <;> cases key <;> simp [factsIfKey]

section Cases
variable (files : PkiFiles) (newKey : Key) (clock : Clock)

/-- The CA is kept while it is good, or both its files are written anew. -/
theorem ensureCa_cases :
    (∃ cert key, files.caCert = some cert ∧ files.caKey = some key ∧
      renewBefore ≤ cert.notAfter - clock.start ∧ ensureCa files newKey clock = (.reuse, cert, key, [])) ∨
    (∃ action, action ≠ .reuse ∧
      (∀ cert key, files.caCert = some cert → files.caKey = some key → Stale cert clock.start) ∧
      ensureCa files newKey clock =
        (action, (createCa newKey clock.ca).1, newKey, (createCa newKey clock.ca).2)) := by
  by_cases hreuse : decide (factsIfKey files.caCert files.caKey none) clock.start false = .reuse
  · obtain ⟨known, hknown, hleft, -, -⟩ := decide_eq_reuse_iff.1 hreuse
    obtain ⟨cert, key, hcert, hkey, rfl⟩ := factsIfKey_eq_some_iff.1 hknown
    refine .inl ⟨cert, key, hcert, hkey, hleft, ?_⟩
    simp only [ensureCa, hreuse]
    simp only [hcert, hkey]
  · refine .inr ⟨_, hreuse, fun cert key hcert hkey => Int.not_le.1 fun hleft => hreuse ?_, ?_⟩
    · exact decide_eq_reuse_iff.2 ⟨_, factsIfKey_eq_some_iff.2 ⟨cert, key, hcert, hkey, rfl⟩, hleft, rfl,
        fun hcheck => absurd hcheck Bool.false_ne_true⟩
    · rw [ensureCa]
      split
      · rename_i haction _ _
        exact absurd haction hreuse
      · rfl

/-- The leaf is kept while it is good and from this CA, or both its files are written anew. -/
theorem ensureLeaf_cases (ca : Certificate) (caKey : Key) :
    (∃ leaf key, files.tlsCert = some leaf ∧ files.tlsKey = some key ∧
      renewBefore ≤ leaf.notAfter - clock.start ∧ leaf.signedBy = ca.publicKey ∧
      (requiredDnsNames ⊆ leaf.dnsNames ∧ requiredIpAddresses ⊆ leaf.ipAddresses) ∧
      ensureLeaf files ca caKey newKey clock = (.reuse, [])) ∨
    (∃ action, action ≠ .reuse ∧
      (∀ leaf key, files.tlsCert = some leaf → files.tlsKey = some key →
        requiredDnsNames ⊆ leaf.dnsNames ∧ requiredIpAddresses ⊆ leaf.ipAddresses →
        Stale leaf clock.start ∨ leaf.signedBy ≠ ca.publicKey) ∧
      ensureLeaf files ca caKey newKey clock = (action, createLeaf newKey caKey clock.leaf)) := by
  by_cases hreuse : decide (factsIfKey files.tlsCert files.tlsKey (some ca)) clock.start true = .reuse
  · obtain ⟨known, hknown, hleft, hissued, hnames⟩ := decide_eq_reuse_iff.1 hreuse
    obtain ⟨leaf, key, hleaf, hkey, rfl⟩ := factsIfKey_eq_some_iff.1 hknown
    refine .inl ⟨leaf, key, hleaf, hkey, hleft, by simpa [factsOf] using hissued, hnames rfl, ?_⟩
    simp only [ensureLeaf, hreuse]
    rfl
  · refine .inr ⟨_, hreuse, fun leaf key hleaf hkey hnames => ?_, ?_⟩
    · by_contra hgood
      obtain ⟨hleft, hissued⟩ := not_or.1 hgood
      refine hreuse (decide_eq_reuse_iff.2
        ⟨_, factsIfKey_eq_some_iff.2 ⟨leaf, key, hleaf, hkey, rfl⟩, Int.not_lt.1 hleft, ?_, fun _ => hnames⟩)
      simpa [factsOf] using hissued
    · simp only [ensureLeaf, ne_eq, hreuse, not_false_eq_true, if_true]

end Cases

/-! ## Every prefix of the writes of a call -/

/-- A CA on disk with its own key, good for now. -/
structure Ready (files : PkiFiles) (ca : Certificate) (caKey : Key) (now : Int) : Prop where
  cert : files.caCert = some ca
  key : files.caKey = some caKey
  pair : ca.publicKey = caKey
  left : renewBefore ≤ ca.notAfter - now

/-- A new certificate is good for longer than it takes to renew it. -/
theorem left_wholeSeconds {now created validity : Int} (h : now ≤ created) (hvalid : leafValidity ≤ validity) :
    renewBefore ≤ wholeSeconds (created + validity) - now := by
  simp only [wholeSeconds, renewBefore, leafValidity, day, second] at *
  omega

section Prefix
variable {files : PkiFiles} {newKey : Key} {now : Int} {clock : Clock}

theorem healing_take_two {a b : Write} (hnone : Healing files newKey now)
    (hone : Healing (files.write a) newKey now) (htwo : Healing ((files.write a).write b) newKey now) :
    ∀ done, Healing (files.writeAll ([a, b].take done)) newKey now
  | 0 => hnone
  | 1 => hone
  | _ + 2 => by
    rw [List.take_succ_cons, List.take_succ_cons, List.take_nil]
    exact htwo

theorem consistent_of {ca leaf : Certificate} (hcaKey : files.caKey = some ca.publicKey)
    (hca : files.caCert = some ca) (htlsKey : files.tlsKey = some leaf.publicKey)
    (hleaf : files.tlsCert = some leaf) (hsigned : leaf.signedBy = ca.publicKey)
    (hnames : requiredDnsNames ⊆ leaf.dnsNames ∧ requiredIpAddresses ⊆ leaf.ipAddresses) : Consistent files := by
  obtain ⟨caKey, caCert, tlsKey, tlsCert⟩ := files
  cases hcaKey
  cases hca
  cases htlsKey
  cases hleaf
  exact ⟨ca, leaf, rfl, hsigned, hnames⟩

theorem leftAt_of {ca leaf : Certificate} (hca : files.caCert = some ca) (hleaf : files.tlsCert = some leaf)
    (hcaLeft : renewBefore ≤ ca.notAfter - now) (hleafLeft : renewBefore ≤ leaf.notAfter - now) :
    LeftAt files now := by
  rintro cert (hcert | hcert)
  · cases hca.symm.trans hcert
    exact hcaLeft
  · cases hleaf.symm.trans hcert
    exact hleafLeft

/-- The CA files heal at every moment, and the CA is ready in the end. -/
theorem ensureCa_heals (h : Healing files newKey clock.start) {action : Action} {ca : Certificate} {caKey : Key}
    {writes : List Write} (hcall : ensureCa files newKey clock = (action, ca, caKey, writes)) :
    (∀ done, Healing (files.writeAll (writes.take done)) (newKey + 1) clock.start) ∧
      Ready (files.writeAll writes) ca caKey clock.start := by
  have hlater : Healing files (newKey + 1) clock.start := h.later (Nat.le_succ _) (Int.le_refl _)
  obtain ⟨cert, key, hcert, hkey, hleft, hkept⟩ | ⟨_, -, hold, hmade⟩ := ensureCa_cases files newKey clock
  · rw [hkept] at hcall
    cases hcall
    obtain ⟨key', hkey', hpair⟩ := h.ca ca hcert
    have hsame : caKey = key' := Option.some.inj (hkey.symm.trans hkey')
    have hpair : ca.publicKey = caKey := hsame ▸ hpair.resolve_right (Int.not_lt.2 hleft)
    exact ⟨fun done => by rw [List.take_nil]; exact hlater, hcert, hkey, hpair, hleft⟩
  · rw [hmade] at hcall
    cases hcall
    have hstale : ∀ cert, files.caCert = some cert → Stale cert clock.start := fun cert hcert => by
      obtain ⟨key, hkey, -⟩ := h.ca cert hcert
      exact hold cert key hcert hkey
    have hkeyWritten := hlater.writeCaKey hstale newKey
    refine ⟨healing_take_two hlater hkeyWritten (hkeyWritten.writeCaCert rfl (Nat.lt_succ_self _) ?_),
      rfl, rfl, rfl, ?_⟩
    · exact fun leaf hleaf => Nat.ne_of_lt (h.leafUsed leaf hleaf)
    · exact left_wholeSeconds clock.start_le (by decide)

/-- The leaf files heal at every moment, and in the end everything fits. -/
theorem ensureLeaf_heals (h : Healing files newKey clock.start) {ca : Certificate} {caKey : Key}
    (hca : Ready files ca caKey clock.start) {action : Action} {writes : List Write}
    (hcall : ensureLeaf files ca caKey newKey clock = (action, writes)) :
    (∀ done, Healing (files.writeAll (writes.take done)) (newKey + 1) clock.start) ∧
      Consistent (files.writeAll writes) ∧ LeftAt (files.writeAll writes) clock.start := by
  have hlater : Healing files (newKey + 1) clock.start := h.later (Nat.le_succ _) (Int.le_refl _)
  obtain ⟨hcert, hkey, rfl, hcaLeft⟩ := hca
  obtain ⟨leaf, key, hleaf, htls, hleft, hissued, hnames, hkept⟩ | ⟨_, -, hold, hmade⟩ :=
    ensureLeaf_cases files newKey clock ca ca.publicKey
  · rw [hkept] at hcall
    cases hcall
    obtain ⟨key', hkey', hpair⟩ := h.leaf leaf hleaf
    have hsame : key = key' := Option.some.inj (htls.symm.trans hkey')
    have hpair : leaf.publicKey = key := hsame ▸ hpair.resolve_right fun hreplaced =>
      hreplaced.elim (Int.not_lt.2 hleft) fun hother => hother ca hcert hissued
    exact ⟨fun done => by rw [List.take_nil]; exact hlater,
      consistent_of hkey hcert (hpair ▸ htls) hleaf hissued hnames, leftAt_of hcert hleaf hcaLeft hleft⟩
  · rw [hmade] at hcall
    cases hcall
    have hreplaced : ∀ leaf, files.tlsCert = some leaf → Replaced files leaf clock.start := fun leaf hleaf => by
      obtain ⟨key, htls, -⟩ := h.leaf leaf hleaf
      refine (hold leaf key hleaf htls (h.names leaf hleaf)).imp_right fun hother ca' hca' => ?_
      cases hcert.symm.trans hca'
      exact hother
    have hkeyWritten := hlater.writeTlsKey hreplaced newKey
    have hnames : requiredDnsNames ⊆ requiredDnsNames ∧ requiredIpAddresses ⊆ requiredIpAddresses :=
      ⟨List.Subset.refl _, List.Subset.refl _⟩
    refine ⟨healing_take_two hlater hkeyWritten (hkeyWritten.writeTlsCert rfl ?_ hnames),
      consistent_of hkey hcert rfl rfl rfl hnames, leftAt_of hcert rfl hcaLeft ?_⟩
    · exact Nat.lt_succ_of_lt (h.caUsed ca hcert)
    · exact left_wholeSeconds (Int.le_trans clock.start_le clock.ca_le) (Int.le_refl _)

end Prefix

/-! ## Runs -/

theorem writeAll_append (files : PkiFiles) (first second : List Write) :
    files.writeAll (first ++ second) = (files.writeAll first).writeAll second := List.foldl_append

/-- A call heals at every moment, and what it leaves when it completes is consistent and good. -/
theorem ensure_heals {files : PkiFiles} {newKey : Key} {clock : Clock} (h : Healing files newKey clock.start) :
    (∀ done, Healing (files.writeAll ((ensure files newKey clock).1.take done)) (newKey + 2) clock.start) ∧
      Consistent (files.writeAll (ensure files newKey clock).1) ∧
      LeftAt (files.writeAll (ensure files newKey clock).1) clock.start := by
  rcases hca : ensureCa files newKey clock with ⟨caAction, ca, caKey, caWrites⟩
  rcases hleaf : ensureLeaf (files.writeAll caWrites) ca caKey (newKey + 1) clock with ⟨leafAction, leafWrites⟩
  obtain ⟨hcaHeals, hready⟩ := ensureCa_heals h hca
  have hcaDone : Healing (files.writeAll caWrites) (newKey + 1) clock.start := by
    have hall := hcaHeals caWrites.length
    rwa [List.take_length] at hall
  obtain ⟨hleafHeals, hconsistent, hleft⟩ := ensureLeaf_heals hcaDone hready hleaf
  have hensure : ensure files newKey clock = (caWrites ++ leafWrites, ⟨caAction, leafAction⟩) := by
    simp only [ensure, hca, hleaf]
  rw [hensure, writeAll_append]
  refine ⟨fun done => ?_, hconsistent, hleft⟩
  rw [List.take_append, writeAll_append]
  -- before the last CA file is written no leaf file is
  rcases Nat.lt_or_ge done caWrites.length with hcut | hdone
  · rw [Nat.sub_eq_zero_of_le (Nat.le_of_lt hcut), List.take_zero]
    exact (hcaHeals done).later (Nat.le_succ _) (Int.le_refl _)
  · rw [List.take_of_length_le hdone]
    exact hleafHeals _

/-- Consistent files that are good are kept. -/
theorem ensure_keeps {files : PkiFiles} {newKey : Key} {clock : Clock} (h : Consistent files)
    (hleft : LeftAt files clock.start) : ensure files newKey clock = ([], ⟨.reuse, .reuse⟩) := by
  obtain ⟨ca, leaf, rfl, hsigned, hnames⟩ := h
  have hcaLeft := hleft ca (.inl rfl)
  have hleafLeft := hleft leaf (.inr rfl)
  obtain ⟨_, _, hca, hcaKey, -, hcaKept⟩ | ⟨_, -, hold, -⟩ := ensureCa_cases
      ⟨some ca.publicKey, some ca, some leaf.publicKey, some leaf⟩ newKey clock
  · cases hca
    cases hcaKey
    obtain ⟨_, _, -, -, -, -, -, hleafKept⟩ | ⟨_, -, hold, -⟩ := ensureLeaf_cases
        ⟨some ca.publicKey, some ca, some leaf.publicKey, some leaf⟩ (newKey + 1) clock ca ca.publicKey
    · simp only [ensure, hcaKept, PkiFiles.writeAll, List.foldl_nil, hleafKept, List.append_nil]
    · exact absurd hsigned ((hold leaf _ rfl rfl hnames).resolve_left (Int.not_lt.2 hleafLeft))
  · exact absurd (hold ca _ rfl rfl) (Int.not_lt.2 hcaLeft)

/-- The empty folder. -/
def emptyFolder (now : Int) : State := { now }

theorem healing_emptyFolder (now : Int) : Healing (emptyFolder now).files (emptyFolder now).newKey now := by
  constructor <;> rintro _ ⟨⟩

/-- Each call that completes settles the files, wherever earlier calls crashed. -/
theorem calls_settle (now : Int) (run : List Call) : calls.Along Settles (emptyFolder now) run := by
  refine Machine.along_of_inv (I := fun state => Healing state.files state.newKey state.now) (C := fun _ _ _ => True)
    (fun state call after hinv hstep _ => ?_) (healing_emptyFolder now) Machine.along_trivial
  simp only [calls] at hstep
  split at hstep
  · rename_i hnow
    cases hstep
    obtain ⟨hheals, hconsistent, hleft⟩ := ensure_heals (hinv.later (Nat.le_refl _) hnow)
    constructor
    · intro hcomplete
      simp only [Call.writes, hcomplete]
      exact ⟨hconsistent, hleft, fun _ => ensure_keeps hconsistent⟩
    · cases hcrash : call.crashAfter with
      | none =>
        have hall := hheals (ensure state.files state.newKey call.clock).1.length
        rw [List.take_length] at hall
        simpa only [Call.writes, hcrash] using hall
      | some done => simpa only [Call.writes, hcrash] using hheals done
  · cases hstep

end Pki

end TxPlatform
