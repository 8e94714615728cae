import Serctl.Ipc.Prelude
import Serctl.Lib.Json

/-!
# Runtime locks

A daemon publishes where it listens in the lock file of its profile.  Clients read that file, and
cleanup removes it when no client would accept it; each has its own checks.
-/

namespace Serctl.Vault

open Lib Lib.Guard Ipc

variable (x : Platform) (os : Os) (runtimeDir : String)

variable (parse : List UInt8 → Except Error LockInfo)

variable {x os runtimeDir parse} {profile : ProfileName} {bytes : List UInt8} {info : LockInfo}

section

open Codec

end

end Serctl.Vault
