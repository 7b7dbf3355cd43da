import Corosync.Icmap

/-!
# Reloading the configuration file

`message_handler_req_exec_cfg_reload_config` parses the file into a temporary map, brings the live
map into line with it and checks the result. The notifications that changes of the live map send to
their trackers are left out, as are allocation failures.

What the checks of `totemconfig.c` decide is a parameter, together with the keys they put into the
temporary map.
-/

namespace Corosync.Cfg

open Icmap

/-- The results of the handler. -/
inductive ReloadError
  | ok
  | errInvalidParam
deriving DecidableEq, Repr

/-- The prefixes for which the handler calls `remove_deleted_entries`. -/
def deletedPrefixes : List String :=
  ["logging.", "totem.", "nodelist.", "quorum.", "uidgid.config.", "nozzle."]

/-- The loop of `remove_deleted_entries` over the names of both iterators. New names before the
next old one were added, an old name before the next new one was deleted. -/
def removeDeletedLoop (live : Icmap) : List String → List String → Icmap
  | [], _ => live
  | oldKey :: oldIter, newIter =>
    match newIter.dropWhile (· < oldKey) with
    | [] => removeDeletedLoop (live.erase oldKey) oldIter []
    | newKey :: rest =>
      if newKey = oldKey then removeDeletedLoop live oldIter rest
      else removeDeletedLoop (live.erase oldKey) oldIter (newKey :: rest)

/-- `remove_deleted_entries` -/
def removeDeletedEntries (temp live : Icmap) (start : String) : Icmap :=
  removeDeletedLoop live (live.iter start) (temp.iter start)

/-- `delete_and_notify_if_changed` -/
def deleteAndNotifyIfChanged (live temp : Icmap) (key : String) : Icmap :=
  if temp.keyValueEq live key then temp else temp.erase key

/-- The keys that `remove_ro_entries` names; those of the encryption are named unless knet can be
reconfigured (`HAVE_KNET_CRYPTO_RECONF`). -/
def roEntries (knetCryptoReconf : Bool) : List String :=
  (if knetCryptoReconf then [] else
    ["totem.secauth", "totem.crypto_hash", "totem.crypto_cipher", "totem.keyfile", "totem.key"]) ++
  ["totem.version", "totem.threads", "totem.ip_version", "totem.ip_dscp", "totem.netmtu",
    "totem.interface.bindnetaddr", "totem.interface.mcastaddr", "totem.interface.broadcast",
    "totem.interface.mcastport", "totem.interface.ttl", "totem.transport", "totem.cluster_name",
    "quorum.provider", "system.move_to_root_cgroup", "system.allow_knet_handle_fallback",
    "system.sched_rr", "system.priority", "system.qb_ipc_type", "system.state_dir"]

/-- `remove_ro_entries` -/
def removeRoEntries (knetCryptoReconf : Bool) (live temp : Icmap) : Icmap :=
  (roEntries knetCryptoReconf).foldl (deleteAndNotifyIfChanged live) temp

/-- The keys that `totemconfig.c` puts into the temporary map. -/
def Generated (key : String) : Prop := Under key "runtime.config." ∨ Under key "nodelist."

instance (key : String) : Decidable (Generated key) := inferInstanceAs (Decidable (_ ∨ _))

/-- Keys put into the temporary map by a check. -/
abbrev Additions := { items : List (String × Value) // ∀ item ∈ items, Generated item.1 }

/-- The checks of `totemconfig.c`, with the configuration that is in use. -/
structure Checks where
  configureNewParams : Icmap → Option Additions
  volatileConfigRead : Icmap → Additions
  /-- `totem_reread_crypto_config`: whether it succeeds, and whether it set `crypto_changed` -/
  rereadCryptoConfig : Icmap → Bool × Bool
  calcKnetPingTimers : Icmap → Additions
  volatileConfigValidate : Icmap → Bool

/-- The checks between `remove_ro_entries` and `icmap_copy_map`: the temporary map and
`crypto_changed` if they succeed, `crypto_changed` if they fail. Without `HAVE_KNET_CRYPTO_RECONF`
changed encryption is an error. -/
def Checks.prepare (checks : Checks) (knetCryptoReconf : Bool) (temp : Icmap) :
    Except Bool (Icmap × Bool) :=
  match checks.configureNewParams temp with
  | none => .error false
  | some configured =>
    let temp := temp.setAll configured.1
    let temp := temp.setAll (checks.volatileConfigRead temp).1
    let (valid, cryptoChanged) := checks.rereadCryptoConfig temp
    if !valid then .error cryptoChanged
    else
      let temp := temp.setAll (checks.calcKnetPingTimers temp).1
      if !checks.volatileConfigValidate temp then .error cryptoChanged
      else if cryptoChanged && !knetCryptoReconf then .error false
      else .ok (temp, cryptoChanged)

/-- The live map, the result and whether the activation of a new encryption is multicast. -/
structure Reloaded where
  live : Icmap
  res : ReloadError
  cryptoChanged : Bool

/-- The value of a result. -/
def ReloadError.code : ReloadError → Int32
  | ok => 1
  | errInvalidParam => 7

/-- The writes at `reload_fini`. -/
def reloadFini (live : Icmap) (res : ReloadError) : Icmap :=
  ((live.insert "config.reload_status" (.int32 res.code)).insert
    "config.totemconfig_reload_in_progress" (.uint8 0)).insert
    "config.reload_in_progress" (.uint8 0)

/-- The live map and the temporary one when the checks begin. -/
def alignMaps (knetCryptoReconf : Bool) (live temp : Icmap) : Icmap × Icmap :=
  let live := deletedPrefixes.foldl (removeDeletedEntries temp) live
  (live, removeRoEntries knetCryptoReconf live temp)

/-- The bookkeeping before the file is parsed. -/
def reloadStart (live : Icmap) : Icmap :=
  (live.erase "config.reload_error_message").insert
    "config.totemconfig_reload_in_progress" (.uint8 1)

/-- `message_handler_req_exec_cfg_reload_config`. The parsed file is missing when
`coroparse_configparse` fails, in which case the handler jumps past `reload_fini`. -/
def reloadConfig (knetCryptoReconf : Bool) (checks : Checks) (parsed : Option Icmap)
    (live : Icmap) : Reloaded :=
  let live := reloadStart live
  match parsed with
  | none => ⟨live, .errInvalidParam, false⟩
  | some temp =>
    let live := live.insert "config.reload_in_progress" (.uint8 1)
    let aligned := alignMaps knetCryptoReconf live temp
    match checks.prepare knetCryptoReconf aligned.2 with
    | .error cryptoChanged =>
      ⟨reloadFini aligned.1 .errInvalidParam, .errInvalidParam, cryptoChanged⟩
    | .ok (temp, cryptoChanged) => ⟨reloadFini (aligned.1.copyMap temp) .ok, .ok, cryptoChanged⟩

end Corosync.Cfg
