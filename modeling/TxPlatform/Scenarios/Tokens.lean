import TxPlatform.Lib.Dict
import TxPlatform.Lib.Machine
import TxPlatform.Python.Values

/-! # Tokens from the cache (identity.py:48-73, workload.py:121-127)

Every request of a run asks the same provider for a token, each from a thread of its own, so several calls
may find nothing and ask the issuer at once. When a token ends is counted from when its answer was read, which
is later than when it was issued, and on the clock of the caller, which is not the issuer's and may be set
back. The 30 seconds that must be left make up for some of both.
-/

namespace TxPlatform

namespace TokenProvider

/-- In microseconds. -/
def second : Int := 1000000

/-- What the issuer knows about a token. -/
structure Token where
  client : String
  issuedAt : Int
  lifetime : Int
  deriving DecidableEq

/-- `_CachedToken`. -/
structure CachedToken where
  value : Token
  expiresAt : Int

/-- The answer of the issuer; `raise_for_status` and a body without a token are `none`. -/
structure Answer where
  issuedAt : Int
  lifetime : Int
  expiresIn : Option Json

/-- `clock` is what `time.time()` says. -/
structure State where
  now : Int
  clock : Int
  cache : Dict String CachedToken := ∅
  /-- The clients for whom a call waits for its answer. -/
  waiting : List String := []

inductive Label where
  /-- Time goes on; the clock may be set. -/
  | time (now clock : Int)
  | call (client : String)
  | answer (call : Nat) (answer : Option Answer)

/-- The cached token, when it is good for more than 30 seconds. -/
def cached (state : State) (client : String) : Option Token :=
  match state.cache.get client with
  | some token => if 30 * second < token.expiresAt - state.clock then some token.value else none
  | none => none

section Provider
variable [Python]

/-- `int(body.get("expires_in", 60))`. -/
def Answer.seconds (answer : Answer) : Option Int :=
  match answer.expiresIn with
  | some value => Python.int value
  | none => some 60

/-- What a call that got its answer stores; nothing is an exception. -/
def fetched (state : State) (client : String) (answer : Option Answer) : Option CachedToken := do
  let answer ← answer
  let seconds ← answer.seconds
  return ⟨⟨client, answer.issuedAt, answer.lifetime⟩, state.clock + seconds * second⟩

def provider : Machine State Label where
  step state
    | .time now clock => if state.now ≤ now then some { state with now, clock } else none
    | .call client =>
      match cached state client with
      | some _ => some state
      | none => some { state with waiting := state.waiting ++ [client] }
    | .answer call answer =>
      match state.waiting[call]? with
      | none => none
      | some client =>
        let waiting := state.waiting.eraseIdx call
        match fetched state client answer with
        | none => some { state with waiting }
        | some token => some { state with waiting, cache := state.cache.set client token }

/-- The client a step is about and the token it is given. -/
def returned (state : State) : Label → Option (String × Token)
  | .time _ _ => none
  | .call client => (cached state client).map (client, ·)
  | .answer call answer => do
    let client ← state.waiting[call]?
    let token ← fetched state client answer
    return (client, token.value)

/-! ## Tokens are good -/

/-- How far the answers and the clock can be trusted. -/
structure Trust where
  /-- How long after its issue an answer is read. -/
  delay : Int
  /-- What the clock is ahead of the issuer's time at least, and by how much this changes. -/
  skew : Int
  drift : Int

variable (trust : Trust)

/-- The answer is read within the delay. Its token is good for more than 30 seconds, and for as long as the answer
says or a minute when it does not say. -/
def Answer.Keeps (answer : Answer) (now : Int) : Prop :=
  now ≤ answer.issuedAt + trust.delay ∧ 30 * second < answer.lifetime ∧
    ∀ seconds ∈ answer.seconds, seconds * second ≤ answer.lifetime

/-- The clock does not drift further. -/
def Trust.Steady (now clock : Int) : Prop := trust.skew ≤ clock - now ∧ clock - now ≤ trust.skew + trust.drift

/-- The answers and the clock are as they are trusted to be. -/
def Trusted (state : State) (label : Label) (_ : State) : Prop :=
  match label with
  | .time now clock => trust.Steady now clock
  | .answer _ (some answer) => answer.Keeps trust state.now
  | .answer _ none | .call _ => True

instance (now clock : Int) : Decidable (trust.Steady now clock) := inferInstanceAs (Decidable (_ ∧ _))

instance (answer : Answer) (now : Int) : Decidable (answer.Keeps trust now) := inferInstanceAs (Decidable (_ ∧ _ ∧ _))

instance (state : State) (label : Label) (after : State) : Decidable (Trusted trust state label after) :=
  match label with
  | .time now clock => inferInstanceAs (Decidable (trust.Steady now clock))
  | .answer _ (some answer) => inferInstanceAs (Decidable (answer.Keeps trust state.now))
  | .answer _ none | .call _ => isTrue trivial

/-- Whoever gets a token gets one of its own, and the issuer takes it for 30 seconds less the delay and the
drift. -/
def Fresh (state : State) (label : Label) (_ : State) : Prop :=
  ∀ client token, returned state label = some (client, token) →
    token.client = client ∧ state.now + 30 * second < token.issuedAt + token.lifetime + (trust.delay + trust.drift)

/-- The end of a cached token is late by what the clock is ahead, the delay and the drift at most. -/
structure Sound (state : State) : Prop where
  steady : trust.Steady state.now state.clock
  cache : ∀ client token, state.cache.get client = some token → token.value.client = client ∧
    token.expiresAt ≤ token.value.issuedAt + token.value.lifetime + (trust.skew + trust.delay + trust.drift)

section Step
variable {trust} {state : State} {client : String}

omit [Python] in
theorem cached_fresh (h : Sound trust state) {token : Token} (hcached : cached state client = some token) :
    token.client = client ∧ state.now + 30 * second < token.issuedAt + token.lifetime + (trust.delay + trust.drift) := by
  obtain ⟨hahead, -⟩ := h.steady
  unfold cached at hcached
  split at hcached
  · rename_i stored hstored
    obtain ⟨hclient, hends⟩ := h.cache client stored hstored
    split at hcached <;> cases hcached
    exact ⟨hclient, by omega⟩
  · cases hcached

theorem fetched_sound (h : trust.Steady state.now state.clock) {answer : Option Answer} {token : CachedToken}
    (hfetched : fetched state client answer = some token) (hkeeps : ∀ body, answer = some body → body.Keeps trust state.now) :
    token.value.client = client ∧
      token.expiresAt ≤ token.value.issuedAt + token.value.lifetime + (trust.skew + trust.delay + trust.drift) ∧
      state.now + 30 * second < token.value.issuedAt + token.value.lifetime + (trust.delay + trust.drift) := by
  obtain ⟨body, hbody, hfetched⟩ := Option.bind_eq_some_iff.1 hfetched
  obtain ⟨seconds, hseconds, hfetched⟩ := Option.bind_eq_some_iff.1 hfetched
  cases hfetched
  obtain ⟨hahead, hdrift⟩ := h
  obtain ⟨hread, hlong, hsays⟩ := hkeeps body hbody
  have hseconds := hsays seconds hseconds
  exact ⟨rfl, by dsimp only; omega, by dsimp only; omega⟩

theorem sound_step {label : Label} {after : State} (h : Sound trust state)
    (hstep : provider.step state label = some after)
    (htrusted : Trusted trust state label after) : Fresh trust state label after ∧ Sound trust after := by
  cases label with
  | time now clock =>
    simp only [provider] at hstep
    split at hstep <;> cases hstep
    refine ⟨fun _ _ hreturned => ?_, htrusted, h.cache⟩
    cases hreturned
  | call client =>
    constructor
    · intro other token hreturned
      obtain ⟨found, hfound, heq⟩ := Option.map_eq_some_iff.1 hreturned
      cases heq
      exact cached_fresh h hfound
    · simp only [provider] at hstep
      split at hstep <;> cases hstep
      · exact h
      · exact ⟨h.steady, h.cache⟩
  | answer call answer =>
    have hbody : ∀ body, answer = some body → body.Keeps trust state.now := by
      rintro body rfl
      exact htrusted
    simp only [provider] at hstep
    split at hstep
    · cases hstep
    · rename_i client hwaiting
      constructor
      · intro other token hreturned
        simp only [returned, hwaiting, Option.bind_eq_bind, Option.bind_some] at hreturned
        obtain ⟨stored, hstored, heq⟩ := Option.bind_eq_some_iff.1 hreturned
        cases heq
        obtain ⟨hclient, -, hgood⟩ := fetched_sound h.steady hstored hbody
        exact ⟨hclient, hgood⟩
      · split at hstep <;> cases hstep
        · exact ⟨h.steady, h.cache⟩
        · rename_i token hfetched
          obtain ⟨hclient, hends, -⟩ := fetched_sound h.steady hfetched hbody
          refine ⟨h.steady, fun other stored hstored => ?_⟩
          rw [Dict.get_set] at hstored
          split at hstored
          · rename_i heq
            cases hstored
            exact ⟨hclient.trans heq.symm, hends⟩
          · exact h.cache other stored hstored

end Step

/-- **No ended token is handed out**, however many calls ask at once: if every answer is read within a delay and
keeps what it says, and the clock drifts by no more than some time, every call that gets a token gets one of
its own client, and the issuer takes it for as much of 30 seconds as delay and drift leave. -/
theorem tokens_fresh {now clock : Int} (hclock : trust.Steady now clock) {run : List Label}
    (h : provider.Along (Trusted trust) { now, clock } run) : provider.Along (Fresh trust) { now, clock } run :=
  Machine.along_of_inv (I := Sound trust) (fun _ _ _ hsound hstep htrusted => sound_step hsound hstep htrusted)
    ⟨hclock, fun client token hget => by rw [Dict.get_empty] at hget; cases hget⟩ h

end Provider

/-- Two threads ask at once and both get an answer; a third call takes the token of the second from the cache. The
clock is an hour ahead and is set back by two seconds. -/
def threeCalls : List Label :=
  [.call "scenario-runner", .call "scenario-runner", .time (2 * second) (3600 * second),
    .answer 0 (some ⟨0, 300 * second, some (.int 300)⟩), .answer 0 (some ⟨second, 300 * second, none⟩),
    .time (25 * second) (3625 * second), .call "scenario-runner"]

theorem tokens_fresh_threeCalls : letI := Python.plain
    provider.Along (Fresh ⟨3 * second, 3598 * second, 2 * second⟩) { now := 0, clock := 3600 * second } threeCalls :=
  letI := Python.plain
  tokens_fresh ⟨3 * second, 3598 * second, 2 * second⟩ (by decide) (by decide)

/-- The clock is set back by an hour, and a token of five minutes is handed out long after it ended. -/
theorem ended_after_set_back : letI := Python.plain
    ¬ provider.Along (Fresh ⟨second, 0, 0⟩) { now := 0, clock := 0 } [.call "scenario-runner",
      .answer 0 (some ⟨0, 300 * second, some (.int 300)⟩), .time (3600 * second) 0, .call "scenario-runner"] :=
  letI := Python.plain
  by
    rintro ⟨-, -, -, hfresh, -⟩
    obtain ⟨-, hleft⟩ := hfresh "scenario-runner" ⟨"scenario-runner", 0, 300 * second⟩ rfl
    exact absurd hleft (by decide)

end TokenProvider

end TxPlatform
