import Corosync.Votequorum.Capped

/-!
# Tracking of the expected votes

With `expected_votes_tracking` the highest expected votes are to be kept in a file over restarts.
`load_ev_tracking_barrier` closes the descriptor that `update_ev_tracking_barrier` writes through,
so the file keeps the value it had at the first start. It is the highest value only while nothing
exceeds it.
-/

namespace Corosync.Votequorum

open Library

/-- A node over several lifetimes of its process. -/
structure Lifetimes where
  node : Option Node
  file : Option ℕ
  /-- The highest `expected_votes` so far. -/
  reached : ℕ
  stored : List ℕ
  /-- For each start the barrier that was loaded and the highest `expected_votes` until then. -/
  loads : List (ℕ × ℕ)
deriving DecidableEq, Repr

/-- What happens to the node. -/
inductive LifetimeEvent
  | start (nodeid : NodeId) (config : Icmap)
  | deliver (sender : NodeId) (message : Message)
  | syncInit (memberList : List NodeId)
  | syncActivate
  /-- `votequorum_last_man_standing_timer_fn` -/
  | lastManStandingTimer
  | exit
deriving DecidableEq, Repr

namespace Lifetimes

variable (l : Lifetimes)

/-- The process has reached a new state. -/
def record (n : Node) : Lifetimes :=
  { l with
    node := some n
    reached := max l.reached n.us.expectedVotes
    stored := n.evTrackingFile.getD 0 :: l.stored }

/-- A step of the running process. -/
def running (f : Node → Node) : Option Lifetimes := l.node.map fun n => l.record (f n)

/-- One step. Tracking is on in every configuration. -/
def step : LifetimeEvent → Option Lifetimes
  | .start nodeid config =>
    match l.node, Node.execInitFn config nodeid l.file with
    | none, .ok n =>
      if config.expectedVotesTracking then
        some ({ l with loads := (l.file.getD 0, l.reached) :: l.loads }.record n)
      else none
    | _, _ => none
  | .deliver sender message => l.running (·.deliver sender message)
  | .syncInit memberList => l.running (·.syncInit memberList)
  | .syncActivate => l.running Node.syncActivate
  | .lastManStandingTimer => l.running Node.lastManStandingTimerFn
  | .exit => l.node.map fun n => { l with node := none, file := n.execExitFn.1.evTrackingFile }

/-- The number in the state file. -/
def value : ℕ := ((l.node.map (·.evTrackingFile)).getD l.file).getD 0

end Lifetimes

variable {bound : ℕ} {n n' : Node}

namespace Lifetimes

variable {l l' : Lifetimes} {event : LifetimeEvent}

/-- Nothing that is announced or configured exceeds the number in the state file. -/
def Within (l : Lifetimes) : LifetimeEvent → Prop
  | .start _ config => max config.assignedVotes 1 + config.startingDeviceVotes ≤ l.value
  | .deliver _ message => ∀ n ∈ l.node, Admits l.value n message
  | _ => True

instance (n : Node) (bound : ℕ) (message : Message) : Decidable (Admits bound n message) :=
  match message with
  | .nodeinfo info => inferInstanceAs (Decidable (if info.nodeid = qdeviceNodeid then _ else _))
  | .reconfigure (.expectedVotes _) => inferInstanceAs (Decidable (_ ≤ _))
  | .reconfigure (.nodeVotes _ _) => inferInstanceAs (Decidable (_ ∧ _))
  | .reconfigure .cancelWfa => isTrue trivial

instance (l : Lifetimes) (event : LifetimeEvent) : Decidable (Within l event) := by
  cases event <;> dsimp only [Within] <;> infer_instance

/-- The stored value is the highest one: it is so after every step of the process, it never
decreases, and what a start loads is at least everything reached before. -/
structure Survives (l : Lifetimes) : Prop where
  highest : ∀ n ∈ l.node, n.evTrackingFile = some l.reached
  monotone : l.stored.Pairwise (· ≥ ·)
  loaded : ∀ load ∈ l.loads, load.2 ≤ load.1

/-- What holds while nothing exceeds the value in the file. -/
structure Settled (bound : ℕ) (l : Lifetimes) : Prop where
  running : ∀ n ∈ l.node, Capped bound n ∧ l.reached = bound
  stopped : l.node = none → l.file = some bound ∧ l.reached ≤ bound
  stored : ∀ value ∈ l.stored, value = bound
  loaded : ∀ load ∈ l.loads, load.1 = bound ∧ load.2 ≤ bound

namespace Settled

/-- The value in the file does not change. -/
theorem survives (hsettled : Settled bound l) : Survives l where
  highest n hn := by
    obtain ⟨hcapped, hreached⟩ := hsettled.running n hn
    rw [hreached]
    exact hcapped.file
  monotone := by
    refine List.Pairwise.imp_of_mem ?_
      (List.pairwise_of_forall (R := fun _ _ => True) fun _ _ => trivial)
    intro first second hfirst hsecond _
    rw [hsettled.stored first hfirst, hsettled.stored second hsecond]
  loaded load hload := by
    obtain ⟨hfirst, hsecond⟩ := hsettled.loaded load hload
    omega

/-- The value of the file is the bound. -/
theorem value (hsettled : Settled bound l) : l.value = bound := by
  unfold Lifetimes.value
  cases hnode : l.node with
  | none =>
    rw [(hsettled.stopped hnode).1]
    rfl
  | some n =>
    rw [Option.map_some, Option.getD_some, ((hsettled.running n hnode).1).file]
    rfl

/-- The highest expected votes reached are recorded. -/
theorem record (hsettled : Settled bound l) (hcapped : Capped bound n)
    (hreached : max l.reached n.us.expectedVotes = bound) : Settled bound (l.record n) where
  running other hother := by
    cases hother
    exact ⟨hcapped, hreached⟩
  stopped hnone := absurd hnone (by simp [Lifetimes.record])
  stored value hvalue := by
    obtain rfl | hvalue := List.mem_cons.mp hvalue
    · rw [hcapped.file]
      rfl
    · exact hsettled.stored value hvalue
  loaded := hsettled.loaded

/-- A step of a running node within the bound. -/
theorem step_running {f : Node → Node} (hsettled : Settled bound l)
    (hf : ∀ n ∈ l.node, Capped bound n → Capped bound (f n)) (hstep : l.running f = some l') :
    Settled bound l' := by
  obtain ⟨n, hnode, rfl⟩ := Option.map_eq_some_iff.mp hstep
  obtain ⟨hcapped, hreached⟩ := hsettled.running n hnode
  have hcapped' := hf n hnode hcapped
  refine hsettled.record hcapped' ?_
  have := hcapped'.expected
  omega

/-- A start with expected votes within the bound. -/
theorem step_start {nodeid : NodeId} {config : Icmap} (hsettled : Settled bound l)
    (hpos : 0 < bound) (hwithin : Within l (.start nodeid config))
    (hstep : l.step (.start nodeid config) = some l') : Settled bound l' := by
  rw [Lifetimes.step] at hstep
  split at hstep
  · rename_i n hnode hinit
    obtain ⟨htracking, hl⟩ := Option.ite_none_right_eq_some.mp hstep
    cases hl
    obtain ⟨hfile, hreached⟩ := hsettled.stopped hnode
    have hvotes : max config.assignedVotes 1 + config.startingDeviceVotes ≤ bound := by
      rw [← hsettled.value]
      exact hwithin
    rw [hfile] at hinit
    obtain ⟨hcapped, hexpected⟩ := Capped.of_execInit htracking hpos hvotes hinit
    have hloaded : Settled bound { l with loads := (l.file.getD 0, l.reached) :: l.loads } :=
      { running := hsettled.running
        stopped := hsettled.stopped
        stored := hsettled.stored
        loaded := by
          intro load hload
          obtain rfl | hload := List.mem_cons.mp hload
          · rw [hfile]
            exact ⟨rfl, hreached⟩
          · exact hsettled.loaded load hload }
    refine hloaded.record hcapped ?_
    dsimp only
    omega
  · cases hstep

/-- Every step within the bound keeps it. -/
theorem step (hsettled : Settled bound l) (hpos : 0 < bound) (hwithin : Within l event)
    (hstep : l.step event = some l') : Settled bound l' := by
  cases event with
  | start _ _ => exact hsettled.step_start hpos hwithin hstep
  | deliver sender _ =>
    refine hsettled.step_running (fun n hn hcapped => ?_) hstep
    have hadmits := hwithin n hn
    rw [hsettled.value] at hadmits
    exact hcapped.deliver sender hadmits
  | syncInit memberList =>
    exact hsettled.step_running (fun n _ hcapped => hcapped.syncInit memberList) hstep
  | syncActivate => exact hsettled.step_running (fun n _ hcapped => hcapped.syncActivate) hstep
  | lastManStandingTimer =>
    exact hsettled.step_running (fun n _ hcapped => hcapped.lastManStandingTimerFn) hstep
  | exit =>
    obtain ⟨n, hnode, rfl⟩ := Option.map_eq_some_iff.mp hstep
    obtain ⟨hcapped, hreached⟩ := hsettled.running n hnode
    have hfile : n.execExitFn.1.evTrackingFile = n.evTrackingFile := by
      unfold Node.execExitFn
      split <;> rfl
    exact
      { running := fun other hother => absurd hother (by simp)
        stopped := fun _ => ⟨hfile.trans hcapped.file, Nat.le_of_eq hreached⟩
        stored := hsettled.stored
        loaded := hsettled.loaded }

end Settled

/-- A state file with a number in it, before the first start of the process. -/
def stopped (bound : ℕ) : Lifetimes := ⟨none, some bound, 0, [], []⟩

/-- While nothing exceeds the number that is in the state file, it is the highest value over all
restarts. -/
theorem survives_of_within {events : List LifetimeEvent} (hpos : 0 < bound)
    (hrun : run (restrict Within step) (stopped bound) events = some l) : Survives l := by
  have hsettled : Settled bound l := by
    refine run_invariant (P := Settled bound) ?_ ?_ hrun
    · intro l event l' hsettled hstep
      obtain ⟨hwithin, hstep⟩ := restrict_eq_some.mp hstep
      exact hsettled.step hpos hwithin hstep
    · exact ⟨by simp [stopped], fun _ => ⟨rfl, Nat.zero_le _⟩, by simp [stopped], by simp [stopped]⟩
  exact hsettled.survives

/-- A node list of `count` nodes with one vote each and tracking, for the first one. -/
def trackingConfig (count : ℕ) : Icmap :=
  { localNodePos := some 0, nodelist := List.replicate count none, expectedVotesTracking := true }

/-- A node of a cluster of five hears of another one, and is restarted. -/
def knownCluster : List LifetimeEvent :=
  [.start 1 (trackingConfig 5), .syncInit [1, 2],
    .deliver 2 (.nodeinfo ⟨2, 1, 5, {}⟩), .syncActivate,
    .exit, .start 1 (trackingConfig 5)]

/-- The value survives the restart. -/
theorem survives_of_within_knownCluster :
    ∃ l, run (restrict Within step) (stopped 5) knownCluster = some l ∧ Survives l ∧
      l.loads = [(5, 5), (5, 0)] :=
  ⟨_, rfl, @survives_of_within 5 _ knownCluster (by decide) rfl, rfl⟩

/-- The first start of a node. -/
def firstStart : List LifetimeEvent :=
  [.start 1 (trackingConfig 3), .exit, .start 1 (trackingConfig 3)]

/-- The first start of a node of three creates the file with a zero in it, which stays. The node has
expected three votes, and the next start loads the zero. -/
theorem firstStart_not_survives :
    ∃ l, run step ⟨none, none, 0, [], []⟩ firstStart = some l ∧ l.reached = 3 ∧
      l.stored = [0, 0] ∧ l.loads = [(0, 3), (0, 0)] ∧ ¬ Survives l := by
  refine ⟨_, rfl, rfl, rfl, rfl, fun hsurvives => ?_⟩
  exact absurd (hsurvives.loaded (0, 3) (by decide)) (by decide)

end Lifetimes

end Corosync.Votequorum
