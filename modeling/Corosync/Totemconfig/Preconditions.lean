import Corosync.Library.Fallible
import Corosync.Totemconfig.Validate
import Corosync.Totempg.Sizes
import Corosync.Totemsrp.Token

/-!
# What the engine relies on

The packing of `totempg` divides by what is left of `net_mtu` after the adjustment, `fcc_rtr_limit`
asserts that a window fits the sort queue, and a member list has `PROCESSOR_COUNT_MAX` entries.
Nothing in `totem_config_read` or `totem_config_validate` limits the keys these come from, so an
accepted configuration meets the preconditions exactly when the keys are in range.
-/

namespace Corosync.Totemconfig

open Library
open Totemsrp (Instance OrfToken fccCalculate fccRtrLimit queueRtrItemsSizeMax processorCountMax)
open Totempg (sizeSub mcastHeaderSize messageSizeMax messageQueueMax)

/-! ### The number of members of a link -/

/-- The addresses that the configuration gives for a link: those of the nodelist, or without one
the `member.` keys of an interface section that is read. -/
def addressCount (env : Environment) (settings : Settings) (link : Fin interfaceMax) : ℕ :=
  if hasNodelist settings.nodelist then
    (memberAddrs settings.nodelist).countP fun addr => addr.2.1 = link.val
  else
    match (convertNodelistToInterface env settings link).filter fun entry =>
        settings.transport ≠ some "udp" || entry.bindnetaddr.isSome with
    | none => 0
    | some entry => entry.members.length

variable {env : Environment} {settings : Settings} {transport : Transport} {interfaces : Interfaces}

/-- A member is added to its link. -/
theorem putMember_length {node : NodeEntry} {next : Interfaces} {ring : ℕ × String}
    (hput : putMember env settings transport node interfaces ring = .ok next)
    (link : Fin interfaceMax) :
    (next link).memberList.length =
      (interfaces link).memberList.length + if ring.1 = link.val then 1 else 0 := by
  unfold putMember at hput
  split at hput
  case isFalse => cases hput
  case isTrue hlt =>
    obtain ⟨nodeid, -, hput⟩ := bind_eq_ok.mp hput
    obtain ⟨ip, -, hput⟩ := bind_eq_ok.mp hput
    cases hput
    by_cases hlink : link = ⟨ring.1, hlt⟩
    · subst hlink
      simp
    · have hne : ring.1 ≠ link.val := fun h => hlink (Fin.ext h.symm)
      rw [Function.update_of_ne hlink, if_neg hne, Nat.add_zero]

/-- Parameters do not concern the members. -/
theorem configureLinkParams_memberList (env : Environment) (settings : Settings)
    (transport : Transport) (interfaces : Interfaces) (link : Fin interfaceMax) :
    (configureLinkParams env settings transport interfaces link).memberList =
      (interfaces link).memberList := by
  unfold configureLinkParams
  dsimp only
  split <;> rfl

/-- Every address of the nodelist becomes a member of its link. -/
theorem putNodelistMembersToConfig_length {filled : Interfaces}
    (hput : putNodelistMembersToConfig env settings transport interfaces = .ok filled)
    (link : Fin interfaceMax) :
    (filled link).memberList.length =
      (memberAddrs settings.nodelist).countP fun addr => addr.2.1 = link.val := by
  obtain ⟨members, hfold, hfilled⟩ := bind_eq_ok.mp hput
  cases hfilled
  rw [configureLinkParams_memberList]
  -- each address that is done is counted
  refine foldlM_ok_invariant (fun done (interfaces : Interfaces) =>
    (interfaces link).memberList.length = done.countP fun addr => addr.2.1 = link.val) ?_ rfl hfold
  intro done addr s next hs hstep
  rw [putMember_length hstep link, hs, List.countP_append, List.countP_singleton]
  simp

/-- Every member of a section is read. -/
theorem readMembers_length {ipVersion : IpVersion}
    {strs : List String} {members : List Member} (hring : firstRing0Addr settings.nodelist = none)
    (hread : readMembers env settings ipVersion strs = .ok members) :
    members.length = strs.length := by
  rw [readMembers, hring, if_neg (by simp)] at hread
  exact length_of_mapM_ok hread

/-- The members of an interface section, if it is read. -/
def sectionMembers (transport : Transport) (entry : Option InterfaceEntry) : ℕ :=
  match entry.filter fun entry => transport ≠ .udp || entry.bindnetaddr.isSome with
  | none => 0
  | some entry => entry.members.length

/-- A section that is read replaces the interface of its link. -/
theorem getInterface_eq_ok {sections : Fin interfaceMax → Option InterfaceEntry}
    {state next : Interfaces × Bool}
    {read : Fin interfaceMax} (hring : firstRing0Addr settings.nodelist = none)
    (hread : getInterface env settings transport sections state read = .ok next) :
    (next = state ∧ sectionMembers transport (sections read) = 0) ∨
      ∃ interface broadcastUse, next = (Function.update state.1 read interface, broadcastUse) ∧
        interface.memberList.length = sectionMembers transport (sections read) := by
  unfold getInterface at hread
  split at hread
  next hnone =>
    cases hread
    exact .inl ⟨rfl, by rw [sectionMembers, hnone]⟩
  next entry hentry =>
    obtain ⟨bindnet, -, hread⟩ := bind_eq_ok.mp hread
    obtain ⟨mcastaddr, -, hread⟩ := bind_eq_ok.mp hread
    obtain ⟨-, -, hread⟩ := bind_eq_ok.mp hread
    obtain ⟨members, hmembers, hread⟩ := bind_eq_ok.mp hread
    cases hread
    refine .inr ⟨_, _, rfl, ?_⟩
    rw [sectionMembers, hentry]
    exact readMembers_length hring hmembers

variable {params : Interfaces × Bool}

/-- The members that the interface sections give. -/
theorem getInterfaceParams_length (hring : firstRing0Addr settings.nodelist = none)
    (hparams : getInterfaceParams env settings transport = .ok params) (link : Fin interfaceMax) :
    (params.1 link).memberList.length =
      sectionMembers transport (convertNodelistToInterface env settings link) := by
  unfold getInterfaceParams at hparams
  split at hparams
  next => cases hparams
  next =>
    obtain ⟨state, hfold, hparams⟩ := bind_eq_ok.mp hparams
    cases hparams
    have hstate := foldlM_ok_invariant (fun done (state : Interfaces × Bool) =>
      (state.1 link).memberList.length =
        if link ∈ done then
          sectionMembers transport (convertNodelistToInterface env settings link)
        else 0) ?_ rfl hfold
    · rw [if_pos (List.mem_finRange link)] at hstate
      by_cases hbroadcast : state.2 = true
      · rw [if_pos hbroadcast, ← hstate]
        by_cases hzero : link = 0
        · subst hzero
          simp
        · exact congrArg (fun i : Interface => i.memberList.length)
            (Function.update_of_ne hzero _ _)
      · rw [if_neg hbroadcast, ← hstate]
    · intro done read s next hs hstep
      by_cases hlink : link = read
      · subst hlink
        rw [if_pos (by simp)]
        rcases getInterface_eq_ok hring hstep with ⟨rfl, hzero⟩ | ⟨interface, b, rfl, hlength⟩
        · rw [hs, hzero, ite_self]
        · simpa using hlength
      · have hmem : link ∈ done ++ [read] ↔ link ∈ done := by simp [hlink]
        simp only [hmem]
        rcases getInterface_eq_ok hring hstep with ⟨rfl, -⟩ | ⟨interface, b, rfl, -⟩
        · exact hs
        · rw [← hs]
          exact congrArg (fun i : Interface => i.memberList.length)
            (Function.update_of_ne hlink _ _)

/-- The transport is udp if it is configured. -/
theorem readTransport_udp_iff {key : Option String}
    (hread : readTransport key = .ok transport) : transport = .udp ↔ key = some "udp" := by
  unfold readTransport at hread
  split at hread
  next =>
    cases hread
    simp
  next str =>
    split_ifs at hread with hudpu hudp hknet <;> cases hread
    · simp [hudpu]
    · simp [hudp]
    · simp [hknet]

/-- The members that the node list gives. -/
theorem readNodelist_length {nodes : UInt32 × Interfaces}
    (htransport : readTransport settings.transport = .ok transport)
    (hparams : getInterfaceParams env settings transport = .ok params)
    (hnodes : readNodelist env settings transport params.1 = .ok nodes) (link : Fin interfaceMax) :
    (nodes.2 link).memberList.length = addressCount env settings link := by
  unfold readNodelist at hnodes
  unfold addressCount
  split at hnodes
  case isTrue hlist =>
    rw [if_pos hlist]
    obtain ⟨nodeId, -, hnodes⟩ := bind_eq_ok.mp hnodes
    obtain ⟨filled, hput, hnodes⟩ := bind_eq_ok.mp hnodes
    cases hnodes
    exact putNodelistMembersToConfig_length hput link
  case isFalse hlist =>
    rw [if_neg hlist]
    cases hnodes
    have hring : firstRing0Addr settings.nodelist = none := by
      simp only [hasNodelist, Bool.or_eq_true, not_or, Bool.not_eq_true,
        Option.isSome_eq_false_iff, Option.isNone_iff_eq_none] at hlist
      exact hlist.2
    rw [getInterfaceParams_length hring hparams link, sectionMembers]
    simp only [ne_eq, readTransport_udp_iff htransport]

/-! ### Preconditions -/

/-- `sizeof (struct mcast)` -/
def mcastSize : ℕ := 45

/-- `totemsrp_net_mtu_adjust`, the only adjustment that is called. -/
def netMtuAdjust (netMtu : ℕ) : ℕ := usub netMtu (2 * mcastSize)

/-- `TOTEMPG_PACKET_SIZE` after the adjustment, a `size_t`. -/
def packetSize (netMtu : ℕ) : ℕ := sizeSub (netMtuAdjust netMtu) mcastHeaderSize

/-- `net_mtu - sizeof (struct totempg_mcast) - 16` after the adjustment, a `size_t`. -/
def countDivisor (netMtu : ℕ) : ℕ := sizeSub (netMtuAdjust netMtu) (mcastHeaderSize + 16)

/-- The part of `totem_config` that `totemsrp` uses for flow control. -/
def TotemConfig.srpConfig (config : TotemConfig) : Totemsrp.TotemConfig where
  maxMessages := config.volatileConfig.maxMessages.toNat
  windowSize := config.volatileConfig.windowSize.toNat
  missCountConst := config.volatileConfig.missCountConst.toNat
  failToRecvConst := config.volatileConfig.failToRecvConst.toNat

/-- A node with this configuration and the token at its first visit: nothing was sent before. -/
structure FirstVisit (config : TotemConfig) (inst : Instance) (token : OrfToken) : Prop where
  config_eq : inst.config = config.srpConfig
  myPbl_eq : inst.myPbl = 0
  fcc_eq : token.fcc = 0

/-- What the engine relies on. -/
structure Preconditions (config : TotemConfig) : Prop where
  /-- The divisor of `byte_count_send_ok` is positive and did not wrap around. -/
  countDivisor_pos : 0 < countDivisor config.netMtu.toNat ∧
    countDivisor config.netMtu.toNat + (mcastHeaderSize + 16) + 2 * mcastSize =
      config.netMtu.toNat
  /-- `TOTEMPG_PACKET_SIZE` is positive and did not wrap around. -/
  packetSize_pos : 0 < packetSize config.netMtu.toNat ∧
    packetSize config.netMtu.toNat + mcastHeaderSize + 2 * mcastSize = config.netMtu.toNat
  messageQueueMax_pos : 0 < messageQueueMax (netMtuAdjust config.netMtu.toNat)
  /-- A window and the messages of a visit fit the sort queue and `fcc_rtr_limit` returns. -/
  window_le : ∀ inst token, FirstVisit config inst token →
    config.volatileConfig.windowSize.toNat + fccCalculate inst token ≤ queueRtrItemsSizeMax ∧
      (fccRtrLimit inst token (fccCalculate inst token)).isSome
  memberCount_le : ∀ link, (config.interfaces link).memberList.length ≤ processorCountMax

/-- `window_size` with its default. -/
def Settings.windowSize (settings : Settings) : ℕ :=
  (setValue settings.keys.windowSize 50 false).toNat

/-- `max_messages` with its default. -/
def Settings.maxMessages (settings : Settings) : ℕ :=
  (setValue settings.keys.maxMessages 17 false).toNat

/-- The keys are in the range the engine needs. -/
structure InRange (env : Environment) (settings : Settings) : Prop where
  /-- A `netmtu` that is set has room for the headers and the queue has room for one packet. -/
  netmtu : settings.netmtu.getD 0 = 0 ∨
    115 ≤ (settings.netmtu.getD 0).toNat ∧ (settings.netmtu.getD 0).toNat ≤ 4194394
  window : settings.windowSize + min settings.maxMessages settings.windowSize ≤ 16384
  addresses : ∀ link, addressCount env settings link ≤ 384

/-- The values of `net_mtu` with room in a packet and in the queue. -/
theorem netMtu_preconditions_iff {netMtu : ℕ} (hlt : netMtu < 2 ^ 32) :
    ((0 < countDivisor netMtu ∧
        countDivisor netMtu + (mcastHeaderSize + 16) + 2 * mcastSize = netMtu) ∧
      (0 < packetSize netMtu ∧ packetSize netMtu + mcastHeaderSize + 2 * mcastSize = netMtu) ∧
      0 < messageQueueMax (netMtuAdjust netMtu)) ↔
      115 ≤ netMtu ∧ netMtu ≤ 4194394 := by
  unfold countDivisor packetSize netMtuAdjust messageQueueMax mcastSize mcastHeaderSize sizeSub
    usub messageSizeMax
  rw [Nat.div_pos_iff]
  omega

variable {config : TotemConfig} {inst : Instance} {token : OrfToken}

/-- At the first visit the window and `max_messages` limit what is sent. -/
theorem fccCalculate_firstVisit (hvisit : FirstVisit config inst token) :
    fccCalculate inst token = min config.volatileConfig.maxMessages.toNat
      config.volatileConfig.windowSize.toNat := by
  have hlt := config.volatileConfig.windowSize.toNat_lt
  have husub : usub config.volatileConfig.windowSize.toNat 0 =
      config.volatileConfig.windowSize.toNat := by
    unfold usub
    omega
  simp only [fccCalculate, hvisit.config_eq, hvisit.myPbl_eq, hvisit.fcc_eq,
    TotemConfig.srpConfig, husub, Nat.mul_zero, Nat.zero_mod, Nat.zero_div, lt_self_iff_false,
    false_and, and_false, if_false]

/-- The assertion of `fcc_rtr_limit` holds for a window that fits. -/
theorem fccRtrLimit_isSome {allowed : ℕ}
    (hle : inst.config.windowSize + allowed ≤ queueRtrItemsSizeMax) :
    (fccRtrLimit inst token allowed).isSome := by
  have hroom : usub queueRtrItemsSizeMax (uadd allowed inst.config.windowSize) < 2 ^ 31 := by
    have hmax : queueRtrItemsSizeMax = 16384 := rfl
    unfold usub uadd
    omega
  rw [fccRtrLimit, assertThat_bind_of_true hroom]
  rfl

/-- A node that was just started, with a new token. -/
theorem exists_firstVisit (config : TotemConfig) : ∃ inst token, FirstVisit config inst token :=
  ⟨Instance.totemsrpInitialize config.srpConfig 1 1 Nat.one_pos,
    { seq := 0, tokenSeq := 0, aru := 0, aruAddr := 0, ringId := ⟨1, 4⟩, backlog := 0, fcc := 0,
      retransFlg := false, rtrList := [] }, rfl, rfl, rfl⟩

/-- The windows that fit. -/
theorem window_preconditions_iff (config : TotemConfig) :
    (∀ inst token, FirstVisit config inst token →
      config.volatileConfig.windowSize.toNat + fccCalculate inst token ≤ queueRtrItemsSizeMax ∧
        (fccRtrLimit inst token (fccCalculate inst token)).isSome) ↔
      config.volatileConfig.windowSize.toNat + min config.volatileConfig.maxMessages.toNat
        config.volatileConfig.windowSize.toNat ≤ 16384 := by
  constructor
  · intro hall
    obtain ⟨inst, token, hvisit⟩ := exists_firstVisit config
    have hle := (hall inst token hvisit).1
    rwa [fccCalculate_firstVisit hvisit] at hle
  · intro hle inst token hvisit
    have hfit : config.volatileConfig.windowSize.toNat + fccCalculate inst token ≤
        queueRtrItemsSizeMax := by
      rwa [fccCalculate_firstVisit hvisit]
    refine ⟨hfit, fccRtrLimit_isSome ?_⟩
    rwa [hvisit.config_eq]

/-- What an accepted configuration holds of the keys. -/
structure Accepted (env : Environment) (settings : Settings) (config : TotemConfig) : Prop where
  /-- `net_mtu`, with a default when the key is missing or zero. -/
  netMtu_eq : config.netMtu =
    if settings.netmtu.getD 0 = 0 then
      if config.transportNumber = .knet then .ofNat knetMaxPacketSize else udpNetmtu
    else settings.netmtu.getD 0
  windowSize_eq : config.volatileConfig.windowSize.toNat = settings.windowSize
  maxMessages_eq : config.volatileConfig.maxMessages.toNat = settings.maxMessages
  memberCount_eq : ∀ link,
    (config.interfaces link).memberList.length = addressCount env settings link

/-- What an accepted configuration has passed. -/
theorem accepted_of_accept
    (haccept : accept env settings = .ok config) : Accepted env settings config := by
  obtain ⟨read, hread, hvalidate⟩ := bind_eq_ok.mp haccept
  obtain ⟨-, -, hvalidate⟩ := bind_eq_ok.mp hvalidate
  cases hvalidate
  obtain ⟨transport, htransport, hread⟩ := bind_eq_ok.mp hread
  obtain ⟨crypto, -, hread⟩ := bind_eq_ok.mp hread
  obtain ⟨linkMode, -, hread⟩ := bind_eq_ok.mp hread
  obtain ⟨params, hparams, hread⟩ := bind_eq_ok.mp hread
  obtain ⟨nodes, hnodes, hread⟩ := bind_eq_ok.mp hread
  cases hread
  exact ⟨rfl, rfl, rfl, readNodelist_length htransport hparams hnodes⟩

/-- Accepted values of `net_mtu`, from the configured ones. -/
theorem Accepted.netMtu_iff (haccepted : Accepted env settings config) :
    (115 ≤ config.netMtu.toNat ∧ config.netMtu.toNat ≤ 4194394) ↔ settings.netmtu.getD 0 = 0 ∨
        115 ≤ (settings.netmtu.getD 0).toNat ∧ (settings.netmtu.getD 0).toNat ≤ 4194394 := by
  rw [haccepted.netMtu_eq]
  by_cases hzero : settings.netmtu.getD 0 = 0
  · -- both defaults are in range
    rw [if_pos hzero]
    split_ifs <;> simp [hzero, knetMaxPacketSize, udpNetmtu]
  · simp only [hzero, if_false, false_or]

/-- An accepted configuration meets what the engine relies on exactly when `netmtu`, `window_size`
with `max_messages` and the number of addresses of each link are in range. -/
theorem accepted_preconditions_iff (env : Environment) (settings : Settings)
    (config : TotemConfig) (haccept : accept env settings = .ok config) :
    Preconditions config ↔ InRange env settings := by
  have haccepted := accepted_of_accept haccept
  have hmtu := netMtu_preconditions_iff config.netMtu.toNat_lt
  rw [haccepted.netMtu_iff] at hmtu
  have hwindow := window_preconditions_iff config
  rw [haccepted.windowSize_eq, haccepted.maxMessages_eq] at hwindow
  constructor
  · rintro ⟨hdivisor, hpacket, hqueue, hvisit, hmembers⟩
    refine ⟨hmtu.mp ⟨hdivisor, hpacket, hqueue⟩, hwindow.mp ?_, ?_⟩
    · rwa [haccepted.windowSize_eq] at hvisit
    · intro link
      rw [← haccepted.memberCount_eq link]
      exact hmembers link
  · rintro ⟨hnetmtu, hle, haddresses⟩
    obtain ⟨hdivisor, hpacket, hqueue⟩ := hmtu.mpr hnetmtu
    refine ⟨hdivisor, hpacket, hqueue, ?_, ?_⟩
    · rw [haccepted.windowSize_eq]
      exact hwindow.mpr hle
    · intro link
      rw [haccepted.memberCount_eq link]
      exact haddresses link

/-- What is accepted there meets the preconditions, as the keys are in their ranges. -/
theorem accepted_preconditions_iff_twoNodes :
    ∃ config, accept plainEnvironment (twoNodes none) = .ok config ∧
      (Preconditions config ↔ InRange plainEnvironment (twoNodes none)) :=
  ⟨_, rfl, accepted_preconditions_iff _ _ _ rfl⟩

/-- A `netmtu` of 100 is accepted, and the divisor of `byte_count_send_ok` wraps around. -/
theorem small_netmtu_accepted :
    ∃ config, accept plainEnvironment (twoNodes (some 100)) = .ok config ∧
      ¬ Preconditions config := by
  refine ⟨_, rfl, fun hpre => ?_⟩
  exact absurd hpre.countDivisor_pos.2 (by decide)

end Corosync.Totemconfig
