import Corosync.Library.Run
import Corosync.Uint

/-!
# The events of a connection

`msg_send_or_queue` gives an event to the transport, or puts it in the output queue of the
connection when the transport is busy. `outq_flush` sends the queue later. What the transport
answers is an input of both. The connection also records which events were submitted, which were
accepted by the transport and whether one was given up.

Allocation does not fail here.
-/

namespace Corosync.Ipc

open Library List

/-- What `qb_ipcs_event_send` returns: the length of the event, `-EAGAIN` or another error. -/
inductive SendResult
  | sent
  | again
  | failed
  deriving DecidableEq, Repr

/-- An event. -/
abbrev Event := List UInt8

/-- `struct cs_ipcs_conn_context`, with the history of the connection. -/
structure ConnContext where
  /-- `outq_head` -/
  outq : List Event
  queuing : Bool
  queued : UInt32
  sent : UInt32
  /-- The events given to `msg_send_or_queue`. -/
  submitted : List Event
  accepted : List Event
  givenUp : Bool
  deriving DecidableEq, Repr

namespace ConnContext

variable {context context' : ConnContext}

/-- `cs_ipcs_connection_created` -/
def created : ConnContext where
  outq := []
  queuing := false
  queued := 0
  sent := 0
  submitted := []
  accepted := []
  givenUp := false

/-- The end of `msg_send_or_queue`: a copy of the event is queued. -/
def enqueue (context : ConnContext) (msg : Event) : ConnContext :=
  { context with outq := context.outq ++ [msg], queued := context.queued + 1 }

/-- `msg_send_or_queue` of a new event. The direct path asserts that the queue is empty. -/
def sendOrQueue (context : ConnContext) (msg : Event) (rc : SendResult) : Option ConnContext :=
  if context.queuing then
    some (context.enqueue msg)
  else do
    assertThat (context.outq = [])
    match rc with
    | .sent =>
      return { context with sent := context.sent + 1, accepted := context.accepted ++ [msg] }
    | .again => return { context with queued := 0, sent := 0, queuing := true }.enqueue msg
    | .failed => return { context with givenUp := true }

/-- `msg_send_or_queue` -/
def msgSendOrQueue (context : ConnContext) (iov : List (List UInt8)) (rc : SendResult) :
    Option ConnContext :=
  { context with submitted := context.submitted ++ [iov.flatten] }.sendOrQueue iov.flatten rc

/-- The end of `outq_flush`. -/
def flushed (context : ConnContext) : ConnContext :=
  if context.outq = [] then { context with queuing := false, queued := 0, sent := 0 } else context

/-- The loop of `outq_flush`: the results of the calls to the transport are taken from a list, and
`-EAGAIN` is answered when it is used up. -/
def flushLoop (context : ConnContext) : List Event → List SendResult → ConnContext
  | [], _ => context.flushed
  | _ :: _, [] => context.flushed
  | msg :: outq, rc :: results =>
    match rc with
    | .failed => context
    | .again => context.flushed
    | .sent =>
      { context with
        outq := outq
        sent := context.sent + 1
        queued := context.queued - 1
        accepted := context.accepted ++ [msg] }.flushLoop outq results

/-- `outq_flush` -/
def outqFlush (context : ConnContext) (results : List SendResult) : ConnContext :=
  context.flushLoop context.outq results

/-- A call of one of the two functions with what the transport answers. -/
inductive Call
  /-- `msg_send_or_queue` -/
  | send (iov : List (List UInt8)) (rc : SendResult)
  | flush (results : List SendResult)
  deriving DecidableEq, Repr

/-- A call, which returns unless an assertion fails. -/
def step (context : ConnContext) : Call → Option ConnContext
  | .send iov rc => context.msgSendOrQueue iov rc
  | .flush results => some (context.outqFlush results)

/-! ### One call -/

/-- The accepted events are a beginning of the submitted ones; while no event was given up the queue
holds the others. A queue with events is marked. -/
structure Ordered (context : ConnContext) : Prop where
  marked : context.outq ≠ [] → context.queuing = true
  accepted_prefix : context.accepted <+: context.submitted
  outq_eq : context.givenUp = false → context.accepted ++ context.outq = context.submitted

/-- The state between two calls: an empty queue is not marked. -/
structure Resting (context : ConnContext) : Prop extends context.Ordered where
  outq_ne : context.queuing = true → context.outq ≠ []

/-- A new connection. -/
theorem resting_created : created.Resting :=
  ⟨⟨fun hne => absurd rfl hne, prefix_refl _, fun _ => rfl⟩, fun h => absurd h (by decide)⟩

/-- The condition on a call: once an event was given up the transport takes no other one. -/
def Tolerated (context : ConnContext) : Call → Prop
  | .send _ rc => context.givenUp = true → rc ≠ .sent
  | .flush results => context.givenUp = true → .sent ∉ results

instance (context : ConnContext) (call : Call) : Decidable (context.Tolerated call) := by
  cases call <;> dsimp only [ConnContext.Tolerated] <;> infer_instance

/-- Without queuing nothing is queued. -/
theorem Resting.outq_eq_nil (h : context.Resting) (hdirect : ¬context.queuing = true) :
    context.outq = [] := by
  by_contra hne
  exact hdirect (h.marked hne)

/-- An event is always sent or queued. -/
theorem Resting.msgSendOrQueue_isSome (h : context.Resting) (iov : List (List UInt8))
    (rc : SendResult) : (context.msgSendOrQueue iov rc).isSome := by
  unfold msgSendOrQueue sendOrQueue
  split
  case isTrue => rfl
  case isFalse hdirect =>
    rw [assertThat_bind_of_true (h.outq_eq_nil hdirect)]
    cases rc <;> rfl

/-- One more event is queued. -/
theorem Ordered.append (h : context.Ordered) (hkept : context.givenUp = false) (msg : Event) :
    context.accepted ++ (context.outq ++ [msg]) = context.submitted ++ [msg] := by
  rw [← append_assoc, h.outq_eq hkept]

/-- Where the transport takes an event none was given up before. -/
theorem givenUp_eq_false (h : ¬context.givenUp = true) : context.givenUp = false := by
  simpa using h

/-- An event that is sent or queued keeps the order. -/
theorem Resting.msgSendOrQueue (h : context.Resting) {iov : List (List UInt8)} {rc : SendResult}
    (htolerated : context.givenUp = true → rc ≠ .sent)
    (hsend : context.msgSendOrQueue iov rc = some context') : context'.Resting := by
  have hprefix : context.accepted <+: context.submitted ++ [iov.flatten] :=
    h.accepted_prefix.trans (prefix_append _ _)
  have hqueued : context.outq ++ [iov.flatten] ≠ [] := by simp
  unfold ConnContext.msgSendOrQueue sendOrQueue at hsend
  split at hsend
  case isTrue hqueuing =>
    cases hsend
    exact ⟨⟨fun _ => hqueuing, hprefix, fun hkept => h.append hkept _⟩, fun _ => hqueued⟩
  case isFalse hdirect =>
    obtain ⟨-, hsend⟩ := assertThat_bind_eq_some.mp hsend
    have hempty := h.outq_eq_nil hdirect
    cases rc with
    | sent =>
      cases hsend
      have hkept := givenUp_eq_false fun hgiven => htolerated hgiven rfl
      have hall : context.accepted ++ [iov.flatten] ++ context.outq =
          context.submitted ++ [iov.flatten] := by
        rw [← h.append hkept, hempty, append_nil, nil_append]
      have haccepted : context.accepted ++ [iov.flatten] <+: context.submitted ++ [iov.flatten] :=
        hall ▸ prefix_append _ _
      exact ⟨⟨h.marked, haccepted, fun _ => hall⟩, h.outq_ne⟩
    | again =>
      cases hsend
      exact ⟨⟨fun _ => rfl, hprefix, fun hkept => h.append hkept _⟩, fun _ => hqueued⟩
    | failed =>
      cases hsend
      exact ⟨⟨h.marked, hprefix, nofun⟩, h.outq_ne⟩

/-- The queue is sent. -/
theorem Ordered.flushed (h : context.Ordered) : context.flushed.Resting := by
  unfold ConnContext.flushed
  split
  case isTrue hempty =>
    exact ⟨⟨fun hne => absurd hempty hne, h.accepted_prefix, h.outq_eq⟩, nofun⟩
  case isFalse hne => exact ⟨h, fun _ => hne⟩

/-- The loop of `outq_flush`. The queue may become empty while it is marked, until the loop ends. -/
theorem Ordered.flushLoop {outq : List Event} {results : List SendResult} (h : context.Ordered)
    (houtq : context.outq = outq) (htolerated : context.givenUp = true → .sent ∉ results) :
    (context.flushLoop outq results).Resting := by
  induction outq generalizing context results with
  | nil => exact h.flushed
  | cons msg outq ih =>
    have hne : context.outq ≠ [] := houtq ▸ cons_ne_nil _ _
    cases results with
    | nil => exact h.flushed
    | cons rc _ =>
      cases rc with
      | failed => exact ⟨h, fun _ => hne⟩
      | again => exact h.flushed
      | sent =>
        have hkept := givenUp_eq_false fun hgiven => htolerated hgiven mem_cons_self
        have hall : context.accepted ++ [msg] ++ outq = context.submitted := by
          rw [← h.outq_eq hkept, houtq, append_assoc, singleton_append]
        have haccepted : context.accepted ++ [msg] <+: context.submitted :=
          hall ▸ prefix_append _ _
        exact ih ⟨fun _ => h.marked hne, haccepted, fun _ => hall⟩ rfl
          fun hgiven => absurd hkept (by simpa using hgiven)

/-! ### All calls -/

/-- Every tolerated call keeps the order. -/
theorem Resting.step (h : context.Resting) {call : Call} (htolerated : context.Tolerated call)
    (hstep : context.step call = some context') : context'.Resting := by
  cases call with
  | send _ _ => exact h.msgSendOrQueue htolerated hstep
  | flush _ =>
    cases hstep
    exact h.toOrdered.flushLoop rfl htolerated

/-- After any calls in which the transport takes no event once one was given up, the accepted events
are a beginning of the submitted ones, the queue is marked exactly when it is not empty, and the
next call returns. -/
theorem events_in_order (calls : List Call) (context : ConnContext)
    (hrun : run (restrict Tolerated step) created calls = some context) :
    context.accepted <+: context.submitted ∧ (context.queuing = true ↔ context.outq ≠ []) ∧
      ∀ call, (context.step call).isSome := by
  have hresting : context.Resting := by
    refine run_invariant ?_ resting_created hrun
    intro s call s' h hstep
    obtain ⟨htolerated, hstep⟩ := restrict_eq_some.mp hstep
    exact h.step htolerated hstep
  refine ⟨hresting.accepted_prefix, ⟨hresting.outq_ne, hresting.marked⟩, fun call => ?_⟩
  cases call with
  | send iov rc => exact hresting.msgSendOrQueue_isSome iov rc
  | flush _ => rfl

/-- One event is taken at once, two wait for the transport, and after a flush with an error one of
them is still queued. -/
theorem events_in_order_queued :
    ∃ context, run (restrict Tolerated step) created
        [.send [[1], [2]] .sent, .send [[3]] .again, .send [[4]] .sent,
          .flush [.sent, .failed]] = some context ∧
      context.accepted = [[1, 2], [3]] ∧ context.outq = [[4]] ∧
      context.accepted <+: context.submitted := by
  refine exists_run_imp (fun context => context.accepted = [[1, 2], [3]] ∧ context.outq = [[4]])
    (by decide) fun context hrun hstate => ?_
  exact ⟨hstate.1, hstate.2, (events_in_order _ context hrun).1⟩

/-- An error of the transport on the direct path gives the event up, and the next one is sent. -/
theorem event_given_up_next_sent :
    ∃ context, run step created [.send [[1]] .failed, .send [[2]] .sent] = some context ∧
      ¬context.accepted <+: context.submitted :=
  ⟨_, rfl, by decide⟩

end ConnContext

end Corosync.Ipc
