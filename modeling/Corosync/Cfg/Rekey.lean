import Corosync.Library.Run

/-!
# Changing the encryption

A reload that changes the encryption configures the new one beside the old one. The node then
multicasts an activation, uses the new configuration when it delivers its own activation, multicasts
a clean-up and removes the old configuration when it delivers its own clean-up. All nodes deliver
the messages in one order, but each of them at its own time.

The reloads here are accepted ones, and what the files of the nodes say at a reload is the same on
all of them. knet decrypts with every configuration it has and encrypts with the one in use.
-/

namespace Corosync.Cfg.Rekey

open Library

/-- An encryption, or none for plain text. -/
abbrev Config := Option ℕ

/-- `cfg_message_crypto_reconfig_phase_t` -/
inductive Phase
  | activate
  | cleanup
deriving DecidableEq, Repr

/-- The encryption in `totem_config` and in the handle of knet. -/
structure Crypto where
  /-- The cipher, hash and key of `totem_config`. -/
  config : Config
  /-- `crypto_index`, 1 or 2 -/
  cryptoIndex : ℕ
  /-- What `knet_handle_crypto_set_config` has set for an index. -/
  configs : ℕ → Config
  /-- The index given to `knet_handle_crypto_use_config`, 0 for plain text. -/
  inUse : ℕ
  /-- Plain text is accepted: `knet_handle_crypto_rx_clear_traffic`. -/
  rxClear : Bool

namespace Crypto

/-- The end of `totemknet_initialize`. -/
def initialise (config : Config) : Crypto where
  config := config
  cryptoIndex := 1
  configs := fun index => if index = 1 then config else none
  inUse := if config.isSome then 1 else 0
  rxClear := config.isNone

/-- `totemknet_set_knet_crypto` -/
def setKnetCrypto (crypto : Crypto) : Crypto :=
  { crypto with
    rxClear := crypto.rxClear || crypto.config.isNone
    configs := Function.update crypto.configs crypto.cryptoIndex crypto.config }

/-- `totemknet_reconfigure` with changed encryption -/
def reconfigure (crypto : Crypto) (config : Config) : Crypto :=
  { crypto with config := config, cryptoIndex := 3 - crypto.cryptoIndex }.setKnetCrypto

/-- `totemknet_crypto_reconfigure_phase` -/
def reconfigurePhase (crypto : Crypto) : Phase → Crypto
  | .activate => { crypto with inUse := if crypto.config.isSome then crypto.cryptoIndex else 0 }
  | .cleanup =>
    { crypto with
      configs := Function.update crypto.configs (3 - crypto.cryptoIndex) none
      rxClear := crypto.rxClear && crypto.config.isNone }

/-- What a node transmits with. -/
def transmits (crypto : Crypto) : Config :=
  if crypto.inUse = 0 then none else crypto.configs crypto.inUse

/-- A packet can be received. -/
def Receives (crypto : Crypto) : Config → Prop
  | none => crypto.rxClear = true
  | some key => crypto.configs 1 = some key ∨ crypto.configs 2 = some key

instance (crypto : Crypto) (config : Config) : Decidable (crypto.Receives config) := by
  cases config <;> dsimp only [Crypto.Receives] <;> infer_instance

end Crypto

/-- The ordered messages. -/
inductive Message
  /-- `MESSAGE_REQ_EXEC_CFG_RELOAD_CONFIG`, with the encryption that the files then have -/
  | reload (config : Config)
  /-- `MESSAGE_REQ_EXEC_CFG_CRYPTO_RECONFIG` of a node -/
  | reconfig (nodeid : ℕ) (phase : Phase)
deriving DecidableEq, Repr

/-- The message is a reload. -/
def Message.isReload : Message → Bool
  | .reload _ => true
  | .reconfig _ _ => false

/-- A node; the last two fields are not in the source. -/
structure Node where
  crypto : Crypto
  delivered : ℕ := 0
  outgoing : List Message := []
  stage : ℕ := 0
  history : List Config

namespace Node

/-- The part of `message_handler_req_exec_cfg_reload_config` about the encryption. -/
def reloadConfig (nodeid : ℕ) (node : Node) (config : Config) : Node :=
  if config = node.crypto.config then node
  else
    { node with
      crypto := node.crypto.reconfigure config
      outgoing := node.outgoing ++ [.reconfig nodeid .activate]
      stage := node.stage + 1
      history := config :: node.history }

/-- `message_handler_req_exec_cfg_reconfig_crypto` -/
def reconfigCrypto (nodeid : ℕ) (node : Node) (sender : ℕ) (phase : Phase) : Node :=
  if sender = nodeid then
    { node with
      crypto := node.crypto.reconfigurePhase phase
      outgoing := node.outgoing ++ (if phase = .activate then [.reconfig nodeid .cleanup] else [])
      stage := node.stage + 1 }
  else node

/-- The delivery of a message. -/
def deliver (nodeid : ℕ) (node : Node) (message : Message) : Node :=
  let node := { node with delivered := node.delivered + 1 }
  match message with
  | .reload config => node.reloadConfig nodeid config
  | .reconfig sender phase => node.reconfigCrypto nodeid sender phase

end Node

/-- What can happen. -/
inductive Event
  | reload (config : Config)
  | send (nodeid : ℕ)
  | deliver (nodeid : ℕ)
deriving DecidableEq, Repr

/-- The order of the messages and the nodes. -/
structure System where
  order : List Message := []
  nodes : ℕ → Node

namespace System

/-- Every node has the same encryption. -/
def initialise (config : Config) : System where
  nodes := fun _ => { crypto := .initialise config, history := [config] }

/-- One event among the members of the ring. -/
def step (members : List ℕ) (s : System) : Event → Option System
  | .reload config => some { s with order := s.order ++ [.reload config] }
  | .send nodeid =>
    match (s.nodes nodeid).outgoing with
    | [] => none
    | message :: rest =>
      some {
        order := s.order ++ [message]
        nodes := Function.update s.nodes nodeid { s.nodes nodeid with outgoing := rest } }
  | .deliver nodeid =>
    match s.order[(s.nodes nodeid).delivered]? with
    | none => none
    | some message =>
      if nodeid ∈ members then
        some { s with
          nodes := Function.update s.nodes nodeid ((s.nodes nodeid).deliver nodeid message) }
      else none

/-- Every member can receive what any member transmits. -/
def Continuous (members : List ℕ) (s : System) : Prop :=
  ∀ sender ∈ members, ∀ receiver ∈ members,
    (s.nodes receiver).crypto.Receives (s.nodes sender).crypto.transmits

instance (members : List ℕ) (s : System) : Decidable (s.Continuous members) :=
  inferInstanceAs (Decidable (∀ _ ∈ _, ∀ _ ∈ _, _))

/-- A delivery makes a node go into its next phase. -/
def Advances (s : System) (nodeid : ℕ) : Message → Prop
  | .reload config => config ≠ (s.nodes nodeid).crypto.config
  | .reconfig sender _ => sender = nodeid

instance (s : System) (nodeid : ℕ) (message : Message) : Decidable (s.Advances nodeid message) := by
  cases message <;> dsimp only [System.Advances] <;> infer_instance

/-- The condition on a delivery: a node goes into its next phase only when no member is a phase
behind it, and changes the encryption only when it has cleaned up after the change before. -/
def InStep (members : List ℕ) (s : System) : Event → Prop
  | .deliver nodeid => ∀ message ∈ s.order[(s.nodes nodeid).delivered]?, s.Advances nodeid message →
      (∀ other ∈ members, (s.nodes nodeid).stage ≤ (s.nodes other).stage) ∧
        (message.isReload = true → (s.nodes nodeid).stage % 3 = 0)
  | _ => True

instance (members : List ℕ) (s : System) (event : Event) : Decidable (s.InStep members event) := by
  cases event <;> dsimp only [System.InStep] <;> infer_instance

end System

end Corosync.Cfg.Rekey
