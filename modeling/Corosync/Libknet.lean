import Mathlib.Data.Nat.Notation

/-!
# Constants of libknet

The library is not part of the repository; these are the limits of `libknet.h`.
-/

namespace Corosync

/-- `KNET_MAX_PACKET_SIZE` -/
def knetMaxPacketSize : ℕ := 65536

/-- `KNET_MAX_HOST` -/
def knetMaxHost : ℕ := 65536

end Corosync
