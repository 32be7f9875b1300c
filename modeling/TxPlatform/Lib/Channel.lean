import Mathlib.Data.List.Infix

/-!
# One client of a server that others use as well

The requests of one client reach the server in the order they were sent and are served at any time
after that; requests of other clients are served in between. A channel is the server's state with
the client's view: its requests on the way, and the request of its own that was served last, with
the reply to it. `met` remembers the states in which a request was served.

`Inv` is an invariant of the server under the client's requests, with what the client's last
exchange says about the state. `Rules` lists what each kind of request has to keep, `inv_events` is
the induction over any number of events, and `ensures_of_inv` turns the last exchange of a client
that is done into a fact that lasts.
-/

namespace TxPlatform

/-- A server: what a request of the client does, and what a request of others does. A nonce stands
for what the server draws when it serves the request. -/
structure Server (S R O P N : Type) where
  handle : N → R → S → P × S
  handleOther : N → O → S → S

structure Channel (S R P : Type) where
  state : S
  pending : List R := []
  last : Option (R × P) := none
  met : List S := []

inductive ChannelEvent (O N : Type) where
  | serve (nonce : N)
  | other (nonce : N) (request : O)

namespace Channel

variable {S R O P N : Type} (server : Server S R O P N)

def send (c : Channel S R P) (request : R) : Channel S R P := { c with pending := c.pending ++ [request] }

/-- `serve` takes the oldest request on the way, if there is one. -/
def event (c : Channel S R P) : ChannelEvent O N → Channel S R P
  | .serve nonce =>
    match c.pending with
    | [] => c
    | request :: rest =>
      let (reply, state) := server.handle nonce request c.state
      ⟨state, rest, some (request, reply), c.met ++ [c.state]⟩
  | .other nonce request =>
    { c with state := server.handleOther nonce request c.state, met := c.met ++ [c.state] }

def events (c : Channel S R P) (es : List (ChannelEvent O N)) : Channel S R P := es.foldl (event server) c

@[simp] theorem events_nil (c : Channel S R P) : c.events server [] = c := rfl

@[simp] theorem events_cons (c : Channel S R P) (e : ChannelEvent O N) (es : List (ChannelEvent O N)) :
    c.events server (e :: es) = (c.event server e).events server es := rfl

/-! ## Whose reply is seen -/

/-- No request is on the way, and this is the last one served, with its reply. -/
def Answered (c : Channel S R P) (request : R) (reply : P) : Prop :=
  c.pending = [] ∧ c.last = some (request, reply)

/-- With no request on the way, only others are served. -/
theorem events_idle {c : Channel S R P} (h : c.pending = []) (es : List (ChannelEvent O N)) :
    (c.events server es).pending = [] ∧ (c.events server es).last = c.last := by
  induction es generalizing c with
  | nil => exact ⟨h, rfl⟩
  | cons e es ih =>
    cases e with
    | serve nonce =>
      have hsame : c.event server (.serve nonce) = c := by simp [event, h]
      rw [events_cons, hsame]
      exact ih h
    | other nonce foreign => exact ih (c := c.event server (.other nonce foreign)) h

/-- Until it is served, a request stays the last one on the way. -/
theorem sent_events {c : Channel S R P} {before : List R} {request : R}
    (h : c.pending = before ++ [request]) (es : List (ChannelEvent O N)) :
    (∃ before', (c.events server es).pending = before' ++ [request]) ∨
      ∃ reply, (c.events server es).Answered request reply := by
  induction es generalizing c before with
  | nil => exact .inl ⟨before, h⟩
  | cons e es ih =>
    cases e with
    | other nonce foreign => exact ih (c := c.event server (.other nonce foreign)) h
    | serve nonce =>
      cases before with
      | nil =>
        have hidle : (c.event server (.serve nonce)).pending = [] := by simp [event, h]
        obtain ⟨hpending, hlast⟩ := events_idle server hidle es
        refine .inr ⟨(server.handle nonce request c.state).1, hpending, hlast.trans ?_⟩
        simp [event, h]
      | cons first before =>
        have hnext : (c.event server (.serve nonce)).pending = before ++ [request] := by simp [event, h]
        exact ih hnext

variable {server}

/-! ## Invariants -/

/-- `I` is kept by every request; `A` is what the client sends; `Q` is what its last exchange says
about the state, for as long as only others are served. `room` is assumed where a request is
served. -/
structure Rules (server : Server S R O P N) (room I : S → Prop) (A : R → Prop)
    (Q : Option (R × P) → S → Prop) :
    Prop where
  own : ∀ nonce request s, room s → I s → A request →
    I (server.handle nonce request s).2 ∧
      Q (some (request, (server.handle nonce request s).1)) (server.handle nonce request s).2
  other : ∀ nonce foreign s, room s → I s → I (server.handleOther nonce foreign s) ∧
    ∀ last, Q last s → Q last (server.handleOther nonce foreign s)

structure Inv (I : S → Prop) (A : R → Prop) (Q : Option (R × P) → S → Prop)
    (c : Channel S R P) : Prop where
  state : I c.state
  pending : ∀ request ∈ c.pending, A request
  last : Q c.last c.state

/-- Every request so far found room. -/
def Roomy (room : S → Prop) (c : Channel S R P) : Prop := ∀ s ∈ c.met, room s

instance (room : S → Prop) [DecidablePred room] (c : Channel S R P) : Decidable (c.Roomy room) :=
  inferInstanceAs (Decidable (∀ s ∈ c.met, room s))

theorem met_event (c : Channel S R P) (e : ChannelEvent O N) : c.met <+: (c.event server e).met := by
  cases e with
  | serve nonce =>
    simp only [event]
    split
    · exact List.prefix_refl _
    · exact List.prefix_append _ _
  | other nonce foreign => exact List.prefix_append _ _

theorem met_events (c : Channel S R P) (es : List (ChannelEvent O N)) :
    c.met <+: (c.events server es).met := by
  induction es generalizing c with
  | nil => exact List.prefix_refl _
  | cons e es ih => exact (met_event c e).trans (ih _)

theorem roomy_of_met {room : S → Prop} {c c' : Channel S R P} (h : c.met <+: c'.met)
    (hroom : c'.Roomy room) :
    c.Roomy room := fun s hs => hroom s (h.subset hs)

variable {room I : S → Prop} {A : R → Prop} {Q : Option (R × P) → S → Prop}

theorem inv_event (hrules : Rules server room I A Q) {c : Channel S R P} (h : c.Inv I A Q)
    (e : ChannelEvent O N) (hroom : (c.event server e).Roomy room) :
    (c.event server e).Inv I A Q := by
  cases e with
  | serve nonce =>
    unfold event at hroom ⊢
    cases hpending : c.pending with
    | nil => exact h
    | cons request rest =>
      rw [hpending] at hroom
      obtain ⟨hI, hQ⟩ := hrules.own nonce request c.state (hroom _ (by simp)) h.state
        (h.pending request (by simp [hpending]))
      exact ⟨hI, fun later hmem => h.pending later (by simp [hpending, hmem]), hQ⟩
  | other nonce foreign =>
    obtain ⟨hI, hQ⟩ := hrules.other nonce foreign c.state (hroom _ (by simp [event])) h.state
    exact ⟨hI, h.pending, hQ c.last h.last⟩

/-- **What every request keeps holds at any time**, as long as there is room. -/
theorem inv_events (hrules : Rules server room I A Q) {c : Channel S R P} (h : c.Inv I A Q)
    (es : List (ChannelEvent O N)) (hroom : (c.events server es).Roomy room) :
    (c.events server es).Inv I A Q := by
  induction es generalizing c with
  | nil => exact h
  | cons e es ih =>
    exact ih (inv_event hrules h e (roomy_of_met (met_events _ es) hroom)) hroom

theorem inv_send {c : Channel S R P} (h : c.Inv I A Q) {request : R} (hA : A request) :
    (c.send request).Inv I A Q := by
  refine ⟨h.state, fun r hmem => ?_, h.last⟩
  obtain hmem | hmem := List.mem_append.1 hmem
  · exact h.pending r hmem
  · rw [List.mem_singleton.1 hmem]
    exact hA

/-- An invariant may be exchanged for a weaker one, under which the client may send more. -/
theorem inv_mono {I' : S → Prop} {A' : R → Prop} {Q' : Option (R × P) → S → Prop} {c : Channel S R P}
    (h : c.Inv I A Q) (hI : ∀ s, I s → I' s) (hA : ∀ r, A r → A' r)
    (hQ : ∀ last s, Q last s → Q' last s) :
    c.Inv I' A' Q' :=
  ⟨hI _ h.state, fun r hr => hA r (h.pending r hr), hQ _ _ h.last⟩

/-- `post` holds from now on, whatever others do while there is room. -/
def Ensures (server : Server S R O P N) (room post : S → Prop) (c : Channel S R P) : Prop :=
  ∀ es, (c.events server es).Roomy room → post (c.events server es).state

theorem ensures_of_inv (hrules : Rules server room I A Q) {post : S → Prop} {c : Channel S R P}
    (h : c.Roomy room → c.Inv I A Q) (hidle : c.pending = []) (hpost : ∀ s, Q c.last s → post s) :
    c.Ensures server room post := by
  intro es hroom
  have hinv := inv_events hrules (h (roomy_of_met (met_events c es) hroom)) es hroom
  have hlast := hinv.last
  rw [(events_idle server hidle es).2] at hlast
  exact hpost _ hlast

end Channel

end TxPlatform
