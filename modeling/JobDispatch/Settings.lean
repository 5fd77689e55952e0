import JobDispatch.Network.Address
import JobDispatch.Pairing
set_option autoImplicit false

namespace JobDispatch

/-- The product, or the greatest number when the product is greater. -/
def saturatingMul (a b : UInt64) : UInt64 :=
  if a.toNat * b.toNat < UInt64.size then a * b else UInt64.ofNat (UInt64.size - 1)

/-- The sum with one, or the greatest number. -/
def saturatingSucc (n : UInt32) : UInt32 := if n = UInt32.ofNat (UInt32.size - 1) then n else n + 1

/-- A pause that doubles with each attempt up to a greatest one, in milliseconds. -/
structure Backoff where
  initialMs : UInt64
  maxMs : UInt64
deriving DecidableEq, Repr

namespace Backoff

/-- The pause before an attempt, counted from zero. -/
def delay (backoff : Backoff) (attempt : UInt32) : UInt64 :=
  min (saturatingMul backoff.initialMs (1 <<< (min attempt 63).toUInt64)) backoff.maxMs

end Backoff

/-- All settings. A timeout that is not set never ends. -/
structure Settings where
  stateFile : String
  listenAddress : Network.SocketAddress
  smallJobThreshold : Binary64
  defaultMaxRetries : UInt32
  engineTimeoutMs : Option UInt64
  jobTimeoutMs : Option UInt64
  assignIntervalMs : UInt64
  sweepIntervalMs : UInt64
  backoff : Backoff
deriving DecidableEq, Repr

def defaultStateFile : String := "dispatch_server_state.json"

/-- Jobs below this size are small. -/
def defaultThreshold : Binary64 := Binary64.ofDecimal ⟨false, 50, 0⟩

/-- Seconds as a timeout in milliseconds; no seconds at all set none. -/
def timeoutOfSeconds (seconds : UInt64) : Option UInt64 :=
  if seconds = 0 then none else some (saturatingMul seconds 1000)

def nanosOfMs (ms : UInt64) : Nat := ms.toNat * 1000000

namespace Settings

/-- The settings when nothing is set. -/
def standard : Settings where
  stateFile := defaultStateFile
  listenAddress := ⟨.loopback, 8080, 0⟩
  smallJobThreshold := defaultThreshold
  defaultMaxRetries := 3
  engineTimeoutMs := some 300000
  jobTimeoutMs := some 1800000
  assignIntervalMs := 1000
  sweepIntervalMs := 30000
  backoff := ⟨100, 5000⟩

def pairing (settings : Settings) : Pairing :=
  ⟨settings.smallJobThreshold, settings.engineTimeoutMs.map nanosOfMs⟩

/-- The time that a job may stay assigned, in nanoseconds; one beyond the longest span never
ends. -/
def jobTimeout (settings : Settings) : Option Nat :=
  (settings.jobTimeoutMs.map nanosOfMs).filter fun timeout => decide (timeout ≤ longestSpan)

end Settings

end JobDispatch
