import Corosync.Library.Run
import Corosync.Totemsrp.VisitFlow

/-!
# Runs of a ring

The members of one ring in token order. The token that a member passes on stays in its retransmit
buffer, and its successor receives what is there: the first time this is the token in flight, later
a retransmission. A delayed copy of an older token is any token that the receiver rejects. Packets
may be lost, duplicated and reordered: a member may receive any packet that was ever multicast, any
number of times.
-/

namespace Corosync.Totemsrp

/-- A ring of `n` members. -/
structure Ring (n : ℕ) where
  nodes : Fin n → Instance
  visits : List ℕ

/-- What can happen on a ring. -/
inductive RingEvent (n : ℕ) where
  | token (i : Fin n)
  | stale (i : Fin n) (token : OrfToken)
  | mcast (i : Fin n) (message : Mcast)
  | queue (i : Fin n) (data : List UInt8)
  | transAck (i : Fin n)

namespace Ring

variable {n : ℕ}

/-- Replaces one member. -/
def set (s : Ring n) (i : Fin n) (inst : Instance) : Ring n :=
  { s with nodes := Function.update s.nodes i inst }

/-- The members with one changed. -/
@[simp] theorem set_nodes (s : Ring n) (i : Fin n) (inst : Instance) :
    (s.set i inst).nodes = Function.update s.nodes i inst := rfl

/-- The visits stay as they are. -/
@[simp] theorem set_visits (s : Ring n) (i : Fin n) (inst : Instance) :
    (s.set i inst).visits = s.visits := rfl

/-- Replaces one member and logs its token visit. -/
def visited (s : Ring n) (i : Fin n) (inst : Instance) (count : ℕ) : Ring n where
  nodes := Function.update s.nodes i inst
  visits := s.visits ++ [count]

/-- The members after a visit. -/
@[simp] theorem visited_nodes (s : Ring n) (i : Fin n) (inst : Instance) (count : ℕ) :
    (s.visited i inst count).nodes = Function.update s.nodes i inst := rfl

/-- The visits with one more. -/
@[simp] theorem visited_visits (s : Ring n) (i : Fin n) (inst : Instance) (count : ℕ) :
    (s.visited i inst count).visits = s.visits ++ [count] := rfl

/-- The ring after member `i` handled a token, which is logged when it was accepted. -/
def handled (s : Ring n) (i : Fin n) (token : OrfToken) (inst : Instance) : Ring n :=
  if tokenRejected (s.nodes i) token then s.set i inst
  else s.visited i inst (inst.mcastSent.length - (s.nodes i).mcastSent.length)

variable [NeZero n]

/-- The token in the buffer of the predecessor of member `i`. -/
def incoming (s : Ring n) (i : Fin n) : Option OrfToken :=
  match (s.nodes (i - 1)).orfTokenRetransmit with
  | some (.orf token) => some token
  | _ => none

/-- One event on the ring; `none` when it cannot happen or an assertion fails. -/
def step (s : Ring n) : RingEvent n → Option (Ring n)
  | .token i => do
    let token ← s.incoming i
    let inst ← messageHandlerOrfToken (s.nodes i) token
    return s.handled i token inst
  | .stale i token =>
    if tokenRejected (s.nodes i) token then
      (messageHandlerOrfToken (s.nodes i) token).map (s.handled i token)
    else
      none
  | .mcast i message =>
    if ∃ j, message ∈ (s.nodes j).mcastSent then
      (messageHandlerMcast (s.nodes i) message).map (s.set i)
    else
      none
  | .queue i data => ((s.nodes i).totemsrpMcast data).map (s.set i)
  | .transAck i => some (s.set i (s.nodes i).totemsrpTransAck)

/-- Member `i` would accept the token that its predecessor passed on. -/
def InFlight (s : Ring n) (i : Fin n) (token : OrfToken) : Prop :=
  s.incoming i = some token ∧ tokenRejected (s.nodes i) token = false

/-- What one event does to the ring: a token visit at some member, or a step of a member that
keeps its flow control state. -/
theorem step_cases {s s' : Ring n} {event : RingEvent n} (hstep : s.step event = some s') :
    (∃ i token messages inst, event = .token i ∧ s.InFlight i token ∧
      messageHandlerOrfToken (s.nodes i) token = some inst ∧
      Visits (s.nodes i) token messages inst ∧
      s' = s.visited i inst messages.length) ∨
    (∃ i inst, Keeps (s.nodes i) inst ∧ s' = s.set i inst) := by
  -- a rejected token is not logged
  have hrejected : ∀ {i token inst}, tokenRejected (s.nodes i) token = true →
      s.handled i token inst = s.set i inst := by
    intro i token inst hreject
    simp [handled, hreject]
  cases event with
  | token i =>
    obtain ⟨token, hincoming, hrest⟩ := Option.bind_eq_some_iff.mp hstep
    obtain ⟨inst, hhandle, heq⟩ := Option.bind_eq_some_iff.mp hrest
    cases heq
    rcases messageHandlerOrfToken_cases hhandle with
      ⟨hreject, hkeeps⟩ | ⟨haccept, messages, hvisits⟩
    · exact .inr ⟨i, inst, hkeeps, hrejected hreject⟩
    · refine .inl ⟨i, token, messages, inst, rfl, ⟨hincoming, haccept⟩, hhandle, hvisits, ?_⟩
      simp [handled, haccept, hvisits.mcastSent]
  | stale i _ =>
    simp only [step] at hstep
    split at hstep
    · rename_i hreject
      obtain ⟨inst, hhandle, rfl⟩ := Option.map_eq_some_iff.mp hstep
      rcases messageHandlerOrfToken_cases hhandle with ⟨-, hkeeps⟩ | ⟨haccept, -⟩
      · exact .inr ⟨i, inst, hkeeps, hrejected hreject⟩
      · simp [hreject] at haccept
    · simp at hstep
  | mcast i _ =>
    simp only [step] at hstep
    split at hstep
    · obtain ⟨inst, hhandle, rfl⟩ := Option.map_eq_some_iff.mp hstep
      exact .inr ⟨i, inst, messageHandlerMcast_keeps hhandle, rfl⟩
    · simp at hstep
  | queue i _ =>
    obtain ⟨inst, hqueue, rfl⟩ := Option.map_eq_some_iff.mp hstep
    exact .inr ⟨i, inst, totemsrpMcast_keeps hqueue, rfl⟩
  | transAck i =>
    cases hstep
    exact .inr ⟨i, (s.nodes i).totemsrpTransAck,
      { Keeps.refl _ with }, rfl⟩

end Ring

end Corosync.Totemsrp
