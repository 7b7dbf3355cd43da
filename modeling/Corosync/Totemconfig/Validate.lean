import Corosync.Totemconfig.Config

/-!
# Checking the totem configuration

`totem_config_validate` and the checks it calls, in the order of the source.
-/

namespace Corosync.Totemconfig

/-- `MINIMUM_TIMEOUT` -/
def minimumTimeout : UInt32 := 30

/-- `MINIMUM_TIMEOUT_HOLD` -/
def minimumTimeoutHold : UInt32 := 14

/-- `UDP_NETMTU` -/
def udpNetmtu : UInt32 := 1500

/-- The label `parse_error`. -/
def parseError {α : Type} (reason : String) : Except String α :=
  .error s!"parse error in config: {reason}\n"

/-- A check that stops with a message. -/
def failIf (bad : Bool) (reason : String) : Except String Unit :=
  if bad then parseError reason else .ok ()

/-- The check that a parameter is not less than a minimum. -/
def checkMinimum (parameter : String) (value minimum : UInt32) : Except String Unit :=
  failIf (value < minimum)
    s!"The {parameter} parameter ({value.toInt32} ms) may not be less than ({minimum} ms)."

/-- The links that are configured. -/
def configuredLinks (interfaces : Interfaces) : List (Fin interfaceMax) :=
  (List.finRange interfaceMax).filter fun link => (interfaces link).configured

/-- The check of the token retransmit timeout, with another message for a default. -/
def checkTokenRetransmit (settings : Settings) (value : UInt32) : Except String Unit :=
  if settings.keys.tokenRetransmit.isSome then
    checkMinimum "token retransmit timeout" value minimumTimeout
  else
    failIf (value < minimumTimeout)
      "Not appropriate token or token_retransmits_before_loss_const value set"

/-- Several links need names for the nodes and the same number of members. -/
def checkLinks (settings : Settings) (interfaces : Interfaces) : Except String Unit :=
  match configuredLinks interfaces with
  | first :: _ :: _ => do
    let members := (interfaces first).memberList.length
    failIf ((List.range members).any fun pos =>
        !settings.nodelist.any fun node => node.nodePos = pos && node.name.isSome)
      "for a multi-link configuration, all nodes must have a 'name' attribute"
    failIf ((configuredLinks interfaces).any fun link =>
        (interfaces link).memberList.length ≠ members)
      "Not all nodes have the same number of links"
  | _ => .ok ()

/-- The members of a link have the family of the first one. -/
def checkFamilies (env : Environment) (interfaces : Interfaces) (link : Fin interfaceMax) :
    Except String Unit :=
  match (interfaces link).memberList with
  | [] => .ok ()
  | first :: rest =>
    match rest.find? fun member => member.ip.family ≠ first.ip.family with
    | none => .ok ()
    | some member =>
      parseError (s!"Nodes for link {link.val} have different IP families " ++
        s!"(compared {env.totemipPrint member.ip} with {env.totemipPrint first.ip})")

/-- `totem_volatile_config_validate` -/
def volatileConfigValidate (env : Environment) (settings : Settings) (config : TotemConfig) :
    Except String Unit := do
  let v := config.volatileConfig
  checkMinimum "max_network_delay" v.maxNetworkDelay minimumTimeout
  checkMinimum "token timeout" v.tokenTimeout minimumTimeout
  failIf (100 < v.tokenWarning)
    (s!"The token warning parameter ({v.tokenWarning.toInt32}%) must be between 0 (disabled) " ++
      "and 100.")
  checkTokenRetransmit settings v.tokenRetransmitTimeout
  checkMinimum "token hold timeout" v.tokenHoldTimeout minimumTimeoutHold
  checkMinimum "join timeout" v.joinTimeout minimumTimeout
  checkMinimum "consensus timeout" v.consensusTimeout minimumTimeout
  failIf (v.consensusTimeout < v.joinTimeout)
    (s!"The consensus timeout parameter ({v.consensusTimeout.toInt32} ms) may not be less than " ++
      s!"join timeout ({v.joinTimeout.toInt32} ms).")
  checkMinimum "merge timeout" v.mergeTimeout minimumTimeout
  checkMinimum "downcheck timeout" v.downcheckTimeout minimumTimeout
  checkLinks settings config.interfaces
  (configuredLinks config.interfaces).forM (checkFamilies env config.interfaces)

/-- `totemip_is_mcast` returns 0. -/
def totemipIsMcast (ip : IpAddress) : Bool :=
  ip.family = .inet6 || ip.addr.headD 0 >>> 4 = 0xE

/-- The checks of an interface in `totem_config_validate`. -/
def checkInterface (config : TotemConfig) (link : Fin interfaceMax) : Except String Unit := do
  let interface := config.interfaces link
  let udp := config.transportNumber = .udp
  failIf (udp ∧ interface.mcastAddr = none)
    s!"No multicast address specified for interface {link.val}"
  failIf (interface.ipPort = 0) s!"No multicast port specified for interface {link.val}"
  failIf (255 < interface.ttl) s!"Invalid TTL (should be 0..255) for interface {link.val}"
  failIf (¬ udp ∧ interface.ttl ≠ 1)
    s!"Can only set ttl on multicast transport types for interface {link.val}"
  failIf (255 < interface.knetLinkPriority)
    s!"Invalid link priority (should be 0..255) for interface {link.val}"
  failIf (config.transportNumber ≠ .knet ∧ interface.knetLinkPriority ≠ 1)
    s!"Can only set link priority on knet transport type for interface {link.val}"
  failIf (interface.mcastAddr.map IpAddress.family = some .inet6 ∧ config.nodeId = 0)
    s!"An IPV6 network requires that a node ID be specified for interface {link.val}"
  failIf (config.broadcastUse = false ∧ udp ∧
      interface.mcastAddr.map IpAddress.family ≠ interface.bindnet.map IpAddress.family)
    s!"Multicast address family does not match bind address family for interface {link.val}"
  failIf (config.broadcastUse = false ∧ udp ∧ interface.mcastAddr.map totemipIsMcast ≠ some true)
    s!"mcastaddr is not a correct multicast address for interface {link.val}"

/-- The node ids that `put_nodelist_members_to_config` has stored in the map. -/
def storedNodelist (env : Environment) (settings : Settings) (transport : Transport) :
    List NodeEntry :=
  settings.nodelist.map fun node =>
    if hasNodelist settings.nodelist ∧ transport ≠ .knet ∧ node.nodeid.getD 0 = 0 ∧
        node.rings ≠ [] then
      { node with nodeid := (node.ring0Addr.map (generateNodeid env settings)) <|> node.nodeid }
    else node

/-- `nodeid` of a node in `check_for_duplicate_nodeids`, and the address it is generated from. -/
def checkedNodeid (env : Environment) (settings : Settings) (node : NodeEntry) :
    Option (UInt32 × Option String) :=
  match node.nodeid with
  | some nodeid => some (nodeid, none)
  | none => node.ring0Addr.bind fun addr =>
    if generateNodeid env settings addr = 0xFFFFFFFF then none
    else some (generateNodeid env settings addr, some addr)

/-- `check_for_duplicate_nodeids`: a node is compared with those that come before the first one
with a bigger or the same position. The last message stays. -/
def checkForDuplicateNodeids (env : Environment) (settings : Settings) (transport : Transport) :
    Except String Unit :=
  let nodelist := storedNodelist env settings transport
  let errors := nodelist.filterMap fun node =>
    (checkedNodeid env settings node).bind fun checked =>
      if (nodelist.takeWhile fun other => other.nodePos < node.nodePos).any
          fun other => other.nodeid = some checked.1 then
        some (s!"Nodeid {checked.1}" ++
          (checked.2.map fun addr => s!"(autogenerated from {addr})").getD "" ++
          " appears twice in corosync.conf")
      else none
  match errors.getLast? with
  | none => .ok ()
  | some error => .error error

/-- The checks of `totem_config_validate`. -/
def checkTotemConfig (env : Environment) (settings : Settings) (config : TotemConfig) :
    Except String Unit := do
  let links := configuredLinks config.interfaces
  failIf (links = []) "No interfaces defined"
  failIf (env.localNodePosSet = false) "No valid name found for local host"
  links.forM (checkInterface config)
  failIf (config.version ≠ 2) "This totem parser can only parse version 2 configurations."
  volatileConfigValidate env settings config
  checkForDuplicateNodeids env settings config.transportNumber
  failIf (config.linkMode ≠ "active" ∧ config.linkMode ≠ "rr" ∧ config.linkMode ≠ "passive")
    ("The Knet link mode \"" ++ config.linkMode ++
      "\" specified is invalid.  It must be active, passive or rr.\n")
  failIf (config.transportNumber ≠ .knet ∧ 1 < links.length)
    s!"{links.length} is too many configured interfaces for non-Knet transport."
  failIf (config.transportNumber ≠ .knet ∧
      (config.cryptoCipherType ≠ "none" ∨ config.cryptoHashType ≠ "none"))
    "crypto_cipher & crypto_hash are only valid for the Knet transport."

/-- `totem_config_validate`, which sets a missing `net_mtu` at the end. -/
def totemConfigValidate (env : Environment) (settings : Settings) (config : TotemConfig) :
    Except String TotemConfig := do
  checkTotemConfig env settings config
  return { config with
    netMtu :=
      if config.netMtu = 0 then
        if config.transportNumber = .knet then .ofNat knetMaxPacketSize else udpNetmtu
      else config.netMtu }

/-- The configuration that the engine starts with, when it is accepted. -/
def accept (env : Environment) (settings : Settings) : Except String TotemConfig := do
  let config ← totemConfigRead env settings
  totemConfigValidate env settings config

end Corosync.Totemconfig
