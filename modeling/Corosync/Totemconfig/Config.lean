import Mathlib.Algebra.Ring.Nat
import Mathlib.Data.List.FinRange
import Corosync.Libknet

/-!
# Reading the totem configuration

`totem_config_read` fills `totem_config` from the keys of the map: the interface sections, the
nodelist and the values with defaults. How names of hosts are looked up, what the encryption keys
give and the arithmetic of `double` are parameters, the `Environment`. A `String` is a sequence of
bytes.
-/

namespace Corosync.Totemconfig

/-- `INTERFACE_MAX` -/
abbrev interfaceMax : ℕ := 8

/-- `DEFAULT_PORT` -/
def defaultPort : ℕ := 5405

/-- `TOTEM_LINK_MODE_BYTES` -/
def totemLinkModeBytes : ℕ := 64

/-- `CONFIG_STRING_LEN_MAX` -/
def configStringLenMax : ℕ := 128

/-- `totem_transport_t` -/
inductive Transport
  | udp
  | udpu
  | knet
  deriving DecidableEq, Repr

/-- `AF_INET` and `AF_INET6`. -/
inductive Family
  | inet
  | inet6
  deriving DecidableEq, Repr

/-- `enum totem_ip_version_enum` -/
inductive IpVersion
  | v4
  | v6
  | v46
  | v64
  deriving DecidableEq, Repr

/-- `struct totem_ip_address` when it is not zero, without the `nodeid`. -/
structure IpAddress where
  family : Family
  /-- The bytes of `addr`. -/
  addr : List UInt8
  deriving DecidableEq, Repr

/-- An entry of `member_list`. -/
structure Member where
  /-- `family` and `addr` -/
  ip : IpAddress
  nodeid : UInt32
  deriving DecidableEq, Repr

/-- The part of `struct totem_interface` that is checked; `member_count` is the length of
`member_list`. -/
structure Interface where
  bindnet : Option IpAddress := none
  mcastAddr : Option IpAddress := none
  ipPort : ℕ := 0
  ttl : ℕ := 0
  configured : Bool := false
  knetLinkPriority : ℕ := 0
  memberList : List Member := []
  deriving DecidableEq, Repr

/-- The interfaces of a configuration. -/
abbrev Interfaces := Fin interfaceMax → Interface

/-- The keys below `totem.interface.` for one link. -/
structure InterfaceEntry where
  bindnetaddr : Option String := none
  mcastaddr : Option String := none
  broadcast : Option String := none
  mcastport : Option UInt16 := none
  ttl : Option UInt8 := none
  knetTransport : Option String := none
  knetLinkPriority : Option UInt8 := none
  /-- The addresses of the keys `member.`. -/
  members : List String := []
  deriving DecidableEq, Repr

/-- The keys below `nodelist.node.` for one node. -/
structure NodeEntry where
  nodePos : ℕ
  nodeid : Option UInt32 := none
  name : Option String := none
  /-- The links and the addresses of the keys `ring0_addr`, `ring1_addr` and so on. -/
  rings : List (ℕ × String) := []
  deriving DecidableEq, Repr

/-- The keys below `totem.` that `totem_volatile_config_read` reads. -/
structure VolatileKeys where
  tokenRetransmitsBeforeLossConst : Option UInt32 := none
  token : Option UInt32 := none
  tokenWarning : Option UInt32 := none
  tokenCoefficient : Option UInt32 := none
  maxNetworkDelay : Option UInt32 := none
  windowSize : Option UInt32 := none
  maxMessages : Option UInt32 := none
  missCountConst : Option UInt32 := none
  knetPmtudInterval : Option UInt32 := none
  knetMtu : Option UInt32 := none
  tokenRetransmit : Option UInt32 := none
  hold : Option UInt32 := none
  join : Option UInt32 := none
  consensus : Option UInt32 := none
  merge : Option UInt32 := none
  downcheck : Option UInt32 := none
  failRecvConst : Option UInt32 := none
  seqnoUnchangedConst : Option UInt32 := none
  sendJoin : Option UInt32 := none
  heartbeatFailuresAllowed : Option UInt32 := none
  knetCompressionThreshold : Option UInt32 := none
  knetCompressionLevel : Option Int32 := none
  knetCompressionModel : Option String := none
  blockUnlistedIps : Option String := none
  cancelTokenHoldOnRetransmit : Option String := none
  deriving DecidableEq

/-- The members of `totem_config` that `totem_volatile_config_read` sets. -/
structure VolatileConfig where
  tokenRetransmitsBeforeLossConst : UInt32
  tokenTimeout : UInt32
  tokenWarning : UInt32
  maxNetworkDelay : UInt32
  windowSize : UInt32
  maxMessages : UInt32
  missCountConst : UInt32
  knetPmtudInterval : UInt32
  knetMtu : UInt32
  tokenRetransmitTimeout : UInt32
  tokenHoldTimeout : UInt32
  joinTimeout : UInt32
  consensusTimeout : UInt32
  mergeTimeout : UInt32
  downcheckTimeout : UInt32
  failToRecvConst : UInt32
  seqnoUnchangedConst : UInt32
  sendJoinTimeout : UInt32
  heartbeatFailuresAllowed : UInt32
  knetCompressionThreshold : UInt32
  knetCompressionLevel : Int32
  knetCompressionModel : String
  blockUnlistedIps : UInt32
  cancelTokenHoldOnRetransmit : UInt32
  deriving DecidableEq

/-- The keys of the map. -/
structure Settings where
  transport : Option String := none
  version : Option UInt32 := none
  linkMode : Option String := none
  clearNodeHighBit : Option String := none
  netmtu : Option UInt32 := none
  ipVersion : Option String := none
  clusterName : Option String := none
  /-- The other keys below `totem.`. -/
  keys : VolatileKeys := {}
  interface : Fin interfaceMax → Option InterfaceEntry := fun _ => none
  /-- The number of an interface section that is not below `INTERFACE_MAX`. -/
  interfaceTooBig : Option ℕ := none
  nodelist : List NodeEntry := []

/-- What is not decided by the keys. -/
structure Environment where
  totemipParse : String → IpVersion → Option IpAddress
  totemipPrint : IpAddress → String
  findLocalNode : Option ℕ
  /-- `find_local_node` has set `nodelist.local_node_pos`. -/
  localNodePosSet : Bool
  /-- The types of `totem_get_crypto` for the cipher and the hash, and the message when it or
  `totem_config_keyread` fails. -/
  crypto : Except String (String × String)
  /-- `(int)(token_timeout / (token_retransmits_before_loss_const + 0.2))` -/
  tokenRetransmit : UInt32 → UInt32 → UInt32
  /-- `(int)(token_retransmit_timeout * 0.8 - (1000/HZ))` -/
  hold : UInt32 → UInt32
  /-- `(int)(float)(1.2 * token_timeout)` -/
  consensus : UInt32 → UInt32

/-- The part of `struct totem_config` that is checked. -/
structure TotemConfig where
  transportNumber : Transport
  version : UInt32
  linkMode : String
  cryptoCipherType : String
  cryptoHashType : String
  netMtu : UInt32
  nodeId : UInt32
  broadcastUse : Bool
  interfaces : Interfaces
  /-- What `totem_volatile_config_read` sets. -/
  volatileConfig : VolatileConfig

/-! ### Values with defaults -/

/-- `totem_volatile_config_set_uint32_value` and `totem_volatile_config_set_int32_value`, with no
deleted key. -/
def setValue {α : Type} [DecidableEq α] [OfNat α 0] (key : Option α) (defaultValue : α)
    (allowZeroValue : Bool) : α :=
  match key with
  | none => defaultValue
  | some value => if allowZeroValue = false ∧ value = 0 then defaultValue else value

/-- `totem_volatile_config_set_string_value` -/
def setStringValue (key : Option String) (defaultValue : String) : String :=
  String.ofList ((key.getD defaultValue).toList.take configStringLenMax)

/-- `totem_volatile_config_set_boolean_value` -/
def setBooleanValue (key : Option String) (defaultValue : UInt32) : UInt32 :=
  if key = some "yes" then 1 else if key = some "no" then 0 else defaultValue

/-- The token timeout grows with the number of members of the first link. -/
def tokenTimeout (keys : VolatileKeys) (memberCount : ℕ) : UInt32 :=
  let token := setValue keys.token 3000 false
  if 2 < memberCount then
    token + UInt32.ofNat (memberCount - 2) * keys.tokenCoefficient.getD 650
  else token

/-- `totem_volatile_config_read` -/
def volatileConfigRead (env : Environment) (keys : VolatileKeys) (memberCount : ℕ) :
    VolatileConfig :=
  let retransmits := setValue keys.tokenRetransmitsBeforeLossConst 4 false
  let token := tokenTimeout keys memberCount
  let tokenRetransmit := setValue keys.tokenRetransmit (env.tokenRetransmit token retransmits) false
  { tokenRetransmitsBeforeLossConst := retransmits
    tokenTimeout := token
    tokenWarning := setValue keys.tokenWarning 75 true
    maxNetworkDelay := setValue keys.maxNetworkDelay 50 false
    windowSize := setValue keys.windowSize 50 false
    maxMessages := setValue keys.maxMessages 17 false
    missCountConst := setValue keys.missCountConst 5 false
    knetPmtudInterval := setValue keys.knetPmtudInterval 30 false
    knetMtu := setValue keys.knetMtu 0 false
    tokenRetransmitTimeout := tokenRetransmit
    tokenHoldTimeout := setValue keys.hold (env.hold tokenRetransmit) false
    joinTimeout := setValue keys.join 50 false
    consensusTimeout := setValue keys.consensus (env.consensus token) false
    mergeTimeout := setValue keys.merge 200 false
    downcheckTimeout := setValue keys.downcheck 1000 false
    failToRecvConst := setValue keys.failRecvConst 2500 false
    seqnoUnchangedConst := setValue keys.seqnoUnchangedConst 30 false
    sendJoinTimeout := setValue keys.sendJoin 0 true
    heartbeatFailuresAllowed := setValue keys.heartbeatFailuresAllowed 0 true
    knetCompressionThreshold := setValue keys.knetCompressionThreshold 0 true
    knetCompressionLevel := setValue keys.knetCompressionLevel 0 true
    knetCompressionModel := setStringValue keys.knetCompressionModel "none"
    blockUnlistedIps := setBooleanValue keys.blockUnlistedIps 1
    cancelTokenHoldOnRetransmit := setBooleanValue keys.cancelTokenHoldOnRetransmit 0 }

/-- The transport in `totem_config_read`. -/
def readTransport : Option String → Except String Transport
  | none => .ok .knet
  | some str =>
    if str = "udpu" then .ok .udpu
    else if str = "udp" then .ok .udp
    else if str = "knet" then .ok .knet
    else .error "Invalid transport type. Should be udpu, udp or knet"

/-- `link_mode` in `totem_config_read`. -/
def readLinkMode : Option String → Except String String
  | none => .ok "passive"
  | some str =>
    if totemLinkModeBytes ≤ str.length then .error "totem.link_mode is too long" else .ok str

/-- `totem_config_get_ip_version` -/
def getIpVersion (transport : Transport) (key : Option String) : IpVersion :=
  if key = some "ipv4" then .v4
  else if key = some "ipv6" then .v6
  else if key = some "ipv6-4" then .v64
  else if key = some "ipv4-6" then .v46
  else if transport = .udp then .v4
  else .v64

/-! ### Interfaces -/

/-- The address of the first link. -/
def NodeEntry.ring0Addr (node : NodeEntry) : Option String :=
  (node.rings.find? fun ring => ring.1 = 0).map Prod.snd

/-- The key `nodelist.node.0.ring0_addr`. -/
def firstRing0Addr (nodelist : List NodeEntry) : Option String :=
  (nodelist.find? fun node => node.nodePos = 0).bind NodeEntry.ring0Addr

/-- The node that `find_local_node` returns. -/
def localNode (env : Environment) (nodelist : List NodeEntry) : Option NodeEntry :=
  nodelist.find? fun node => some node.nodePos = env.findLocalNode

/-- The addresses that `config_convert_nodelist_to_interface` uses, those of the local node. It is
called without a `bindnetaddr` for the first link or with a `ring0_addr` for the first node. -/
def convertedRings (env : Environment) (settings : Settings) : List (ℕ × String) :=
  if ((settings.interface 0).bind InterfaceEntry.bindnetaddr) = none ∨
      (firstRing0Addr settings.nodelist).isSome then
    ((localNode env settings.nodelist).map NodeEntry.rings).getD []
  else []

/-- The interface sections after `config_convert_nodelist_to_interface`. -/
def convertNodelistToInterface (env : Environment) (settings : Settings) :
    Fin interfaceMax → Option InterfaceEntry := fun link =>
  match (convertedRings env settings).find? fun ring => ring.1 = link.val with
  | none => settings.interface link
  | some ring => some { (settings.interface link).getD {} with bindnetaddr := some ring.2 }

/-- `generate_cluster_id` -/
def generateClusterId (clusterName : String) : ℕ :=
  clusterName.toList.foldl (fun value c => (2 * value + c.toNat) % 2 ^ 16) 0

/-- `get_cluster_mcast_addr`, with the IP version of the first `bindnet`. -/
def getClusterMcastAddr (env : Environment) (clusterName : Option String) (linknumber : ℕ)
    (bindnet : Option IpAddress) : Option IpAddress :=
  clusterName.bind fun clusterName =>
    let clusterid := (generateClusterId clusterName + linknumber) % 2 ^ 16
    if bindnet.map IpAddress.family = some .inet6 then
      env.totemipParse ("ff15::" ++ String.ofList (Nat.toDigits 16 clusterid)) .v6
    else
      env.totemipParse s!"239.192.{clusterid / 256}.{clusterid % 255}" .v4

/-- Parsing of an address that has to be one. -/
def parseAddr (env : Environment) (ipVersion : IpVersion) (what str : String) :
    Except String IpAddress :=
  match env.totemipParse str ipVersion with
  | none => .error s!"failed to parse {what} address '{str}'\n"
  | some ip => .ok ip

/-- The `knet_transport` of an interface. -/
def checkKnetTransport (knetTransport : Option String) : Except String Unit :=
  match knetTransport with
  | none => .ok ()
  | some str =>
    if str = "sctp" ∨ str = "udp" then .ok ()
    else .error "Unrecognised knet_transport. expected 'udp' or 'sctp'"

/-- The `member.` keys of an interface, which are ignored when there is a `ring0_addr`. -/
def readMembers (env : Environment) (settings : Settings) (ipVersion : IpVersion)
    (members : List String) : Except String (List Member) :=
  if (firstRing0Addr settings.nodelist).isSome then .ok []
  else members.mapM fun str => do
    let ip ← parseAddr env ipVersion "node" str
    return { ip := ip, nodeid := 0 }

/-- The section of one link in `get_interface_params`: for the transport `udp` only the key
`bindnetaddr` is looked for. -/
def getInterface (env : Environment) (settings : Settings) (transport : Transport)
    (sections : Fin interfaceMax → Option InterfaceEntry) (state : Interfaces × Bool)
    (link : Fin interfaceMax) : Except String (Interfaces × Bool) :=
  match (sections link).filter fun entry =>
      transport ≠ .udp || entry.bindnetaddr.isSome with
  | none => .ok state
  | some entry => do
    let ipVersion := getIpVersion transport settings.ipVersion
    let bindnet ← entry.bindnetaddr.mapM (parseAddr env ipVersion "bindnet")
    let mcastaddr ← entry.mcastaddr.mapM (parseAddr env ipVersion "mcast")
    let bindnet0 := if link = 0 then bindnet else (state.1 0).bindnet
    let broadcastUse := state.2 || entry.broadcast = some "yes"
    checkKnetTransport entry.knetTransport
    let members ← readMembers env settings ipVersion entry.members
    return (Function.update state.1 link
      { bindnet := bindnet
        mcastAddr :=
          if mcastaddr = none ∧ transport = .udp then
            getClusterMcastAddr env settings.clusterName link bindnet0
          else mcastaddr
        ipPort := (entry.mcastport.map UInt16.toNat).getD
          (if broadcastUse then defaultPort + 2 * link.val else defaultPort + link.val)
        ttl := (entry.ttl.map UInt8.toNat).getD 1
        configured := true
        knetLinkPriority := (entry.knetLinkPriority.map UInt8.toNat).getD 1
        memberList := members },
      broadcastUse)

/-- The message for a link that is too big. -/
def linkTooBig {α : Type} (linknumber : ℕ) : Except String α :=
  .error (s!"parse error in config: interface ring number {linknumber} " ++
    s!"is bigger than allowed maximum {interfaceMax - 1}\n")

/-- An interface section with a link that is too big, also one from the nodelist. -/
def interfaceTooBig (env : Environment) (settings : Settings) : Option ℕ :=
  settings.interfaceTooBig <|>
    ((convertedRings env settings).find? fun ring => interfaceMax ≤ ring.1).map Prod.fst

/-- `get_interface_params`, not at a reload, and the `mcast_addr` of a broadcast. -/
def getInterfaceParams (env : Environment) (settings : Settings) (transport : Transport) :
    Except String (Interfaces × Bool) :=
  match interfaceTooBig env settings with
  | some linknumber => linkTooBig linknumber
  | none => do
    let sections := convertNodelistToInterface env settings
    let state ← (List.finRange interfaceMax).foldlM
      (getInterface env settings transport sections) (fun _ => {}, false)
    let broadcastAddr := env.totemipParse "255.255.255.255" .v4
    return (if state.2 then
        Function.update state.1 0 { state.1 0 with mcastAddr := broadcastAddr }
      else state.1,
      state.2)

/-! ### Nodes -/

/-- `generate_nodeid` -/
def generateNodeid (env : Environment) (settings : Settings) (addr : String) : UInt32 :=
  match env.totemipParse addr .v4 with
  | none => 0xFFFFFFFF
  | some ip =>
    let nodeid := UInt32.ofNat ((ip.addr.take 4).foldl (fun n byte => n * 256 + byte.toNat) 0)
    if settings.clearNodeHighBit = some "yes" then nodeid &&& 0x7FFFFFFF else nodeid

/-- The `nodeid` for an address of a node in `put_nodelist_members_to_config`. -/
def memberNodeid (env : Environment) (settings : Settings) (transport : Transport)
    (node : NodeEntry) (addr : String) : Except String UInt32 :=
  let nodeid := node.nodeid.getD 0
  if transport = .knet then
    if nodeid = 0 then
      .error s!"Knet requires an explicit nodeid to be specified for address '{addr}'."
    else if knetMaxHost ≤ nodeid.toNat then
      .error s!"Knet requires nodeid to be less than {knetMaxHost} for address '{addr}'."
    else .ok nodeid
  else if nodeid = 0 then
    match node.ring0Addr with
    | none => .ok nodeid
    | some str =>
      if generateNodeid env settings str = 0xFFFFFFFF then
        .error s!"An IPV6 network requires that a node ID be specified for address '{addr}'."
      else .ok (generateNodeid env settings str)
  else .ok nodeid

/-- One address of a node in `put_nodelist_members_to_config`. -/
def putMember (env : Environment) (settings : Settings) (transport : Transport) (node : NodeEntry)
    (interfaces : Interfaces) (ring : ℕ × String) : Except String Interfaces :=
  if hlink : ring.1 < interfaceMax then do
    let link : Fin interfaceMax := ⟨ring.1, hlink⟩
    let nodeid ← memberNodeid env settings transport node ring.2
    let ip ← parseAddr env (getIpVersion transport settings.ipVersion) "node" ring.2
    return Function.update interfaces link
      { interfaces link with
        memberList := (interfaces link).memberList ++ [{ ip := ip, nodeid := nodeid }]
        configured := true }
  else linkTooBig ring.1

/-- `configure_link_params` -/
def configureLinkParams (env : Environment) (settings : Settings) (transport : Transport)
    (interfaces : Interfaces) : Interfaces := fun link =>
  let interface := interfaces link
  let ip := (localNode env settings.nodelist).bind fun node =>
    (node.rings.find? fun ring => ring.1 = link.val).bind fun ring =>
      env.totemipParse ring.2 (getIpVersion transport settings.ipVersion)
  if interface.configured ∧ ip.isSome then
    { interface with
      knetLinkPriority := if interface.knetLinkPriority = 0 then 1 else interface.knetLinkPriority
      ipPort := if interface.ipPort = 0 then defaultPort + link.val else interface.ipPort }
  else interface

/-- The addresses of the nodelist with their nodes, in the order of the map. -/
def memberAddrs (nodelist : List NodeEntry) : List (NodeEntry × ℕ × String) :=
  nodelist.flatMap fun node => node.rings.map fun ring => (node, ring)

/-- `put_nodelist_members_to_config`, not at a reload. -/
def putNodelistMembersToConfig (env : Environment) (settings : Settings) (transport : Transport)
    (interfaces : Interfaces) : Except String Interfaces := do
  let cleared : Interfaces := fun link => { interfaces link with memberList := [] }
  let filled ← (memberAddrs settings.nodelist).foldlM
    (fun interfaces addr => putMember env settings transport addr.1 interfaces addr.2) cleared
  return configureLinkParams env settings transport filled

/-- The key `nodelist.node.0.name` or `nodelist.node.0.ring0_addr` exists. -/
def hasNodelist (nodelist : List NodeEntry) : Bool :=
  ((nodelist.find? fun node => node.nodePos = 0).bind NodeEntry.name).isSome ||
    (firstRing0Addr nodelist).isSome

/-- `node_id` in `totem_config_read`. Without a `ring0_addr` a string is read that was freed, which
is taken here as one that cannot be parsed. -/
def localNodeId (env : Environment) (settings : Settings) (transport : Transport) :
    Except String UInt32 :=
  if env.findLocalNode = none then .ok 0
  else
    let node := localNode env settings.nodelist
    let nodeid := (node.bind NodeEntry.nodeid).getD 0
    if nodeid ≠ 0 then .ok nodeid
    else if transport = .knet then .error "Knet requires an explicit nodeid for the local node"
    else
      let generated := ((node.bind NodeEntry.ring0Addr).map (generateNodeid env settings)).getD
        0xFFFFFFFF
      if generated = 0xFFFFFFFF then
        .error "An IPV6 network requires that a node ID be specified"
      else .ok generated

/-- The nodelist in `totem_config_read`, if there is one. -/
def readNodelist (env : Environment) (settings : Settings) (transport : Transport)
    (interfaces : Interfaces) : Except String (UInt32 × Interfaces) :=
  if hasNodelist settings.nodelist then do
    let nodeId ← localNodeId env settings transport
    let filled ← putNodelistMembersToConfig env settings transport interfaces
    return (nodeId, filled)
  else .ok (0, interfaces)

/-- `totem_config_read` -/
def totemConfigRead (env : Environment) (settings : Settings) : Except String TotemConfig := do
  let transport ← readTransport settings.transport
  let crypto ← env.crypto
  let linkMode ← readLinkMode settings.linkMode
  let params ← getInterfaceParams env settings transport
  let nodes ← readNodelist env settings transport params.1
  return {
    transportNumber := transport
    version := settings.version.getD 0
    linkMode := linkMode
    cryptoCipherType := crypto.1
    cryptoHashType := crypto.2
    netMtu := settings.netmtu.getD 0
    nodeId := nodes.1
    broadcastUse := params.2
    interfaces := nodes.2
    volatileConfig := volatileConfigRead env settings.keys (nodes.2 0).memberList.length }

/-- Two IPv4 addresses can be looked up, and the first node is the local one. -/
def plainEnvironment : Environment where
  totemipParse := fun addr _ =>
    if addr = "10.0.0.1" then some { family := .inet, addr := [10, 0, 0, 1] }
    else if addr = "10.0.0.2" then some { family := .inet, addr := [10, 0, 0, 2] }
    else none
  totemipPrint := fun ip => if ip.addr = [10, 0, 0, 1] then "10.0.0.1" else "10.0.0.2"
  findLocalNode := some 0
  localNodePosSet := true
  crypto := .ok ("none", "none")
  tokenRetransmit := fun _ _ => 714
  hold := fun _ => 561
  consensus := fun _ => 3600

/-- Two nodes with one link and no other keys than a `netmtu`. -/
def twoNodes (netmtu : Option UInt32) : Settings where
  version := some 2
  netmtu := netmtu
  nodelist :=
    [{ nodePos := 0, nodeid := some 1, name := some "a", rings := [(0, "10.0.0.1")] },
      { nodePos := 1, nodeid := some 2, name := some "b", rings := [(0, "10.0.0.2")] }]

end Corosync.Totemconfig
