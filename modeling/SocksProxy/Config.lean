import Mathlib.Algebra.Ring.Nat
import SocksProxy.CString

/-! The run-time configuration of `config.c` and the counters of `metrics.c`. -/

namespace SocksProxy

def configMinBuffer : Nat := 256
def configMaxBuffer : Nat := 1048576

structure ProxyConfig where
  ioBufferSize : Nat
  connTimeoutSecs : Nat
  authRequired : Bool
  pop3Sniff : Bool
  adminUser : CString
  adminPass : CString
  deriving DecidableEq

def configInitDefaults : ProxyConfig where
  ioBufferSize := 8192
  connTimeoutSecs := 0
  authRequired := false
  pop3Sniff := false
  adminUser := .ofString "admin"
  adminPass := .ofString "admin"

structure Metrics where
  historicConnections : Nat
  currentConnections : Nat
  failedConnections : Nat
  bytesSent : Nat
  bytesReceived : Nat
  deriving DecidableEq, Repr

def metricsInit : Metrics := ⟨0, 0, 0, 0, 0⟩

private def add64 (left right : Nat) : Nat := (left + right) % 2 ^ 64

def metricsConnectionOpened (m : Metrics) : Metrics :=
  { m with
    historicConnections := add64 m.historicConnections 1
    currentConnections := add64 m.currentConnections 1 }

def metricsConnectionClosed (m : Metrics) : Metrics :=
  if m.currentConnections > 0 then
    { m with currentConnections := m.currentConnections - 1 }
  else m

def metricsConnectionFailed (m : Metrics) : Metrics :=
  { m with failedConnections := add64 m.failedConnections 1 }

def metricsAddSent (m : Metrics) (n : Nat) : Metrics :=
  { m with bytesSent := add64 m.bytesSent n }

def metricsAddReceived (m : Metrics) (n : Nat) : Metrics :=
  { m with bytesReceived := add64 m.bytesReceived n }

def metricsBytesTransferred (m : Metrics) : Nat :=
  add64 m.bytesSent m.bytesReceived

@[simp] theorem currentConnections_addSent (m : Metrics) (n : Nat) :
    (metricsAddSent m n).currentConnections = m.currentConnections := rfl

@[simp] theorem currentConnections_addReceived (m : Metrics) (n : Nat) :
    (metricsAddReceived m n).currentConnections = m.currentConnections := rfl

@[simp] theorem currentConnections_failed (m : Metrics) :
    (metricsConnectionFailed m).currentConnections = m.currentConnections := rfl

@[simp] theorem currentConnections_closed (m : Metrics) :
    (metricsConnectionClosed m).currentConnections =
      m.currentConnections - 1 := by
  unfold metricsConnectionClosed
  split
  · rfl
  · omega

theorem currentConnections_opened {m : Metrics}
    (small : m.currentConnections + 1 < 2 ^ 64) :
    (metricsConnectionOpened m).currentConnections =
      m.currentConnections + 1 :=
  Nat.mod_eq_of_lt small

theorem failedConnections_failed_ne (m : Metrics) :
    (metricsConnectionFailed m).failedConnections ≠ m.failedConnections := by
  change (m.failedConnections + 1) % 2 ^ 64 ≠ m.failedConnections
  omega

def Metrics.tally (m : Metrics) : Nat × Nat × Nat :=
  (m.failedConnections, m.bytesSent, m.bytesReceived)

@[simp] theorem tally_closed (m : Metrics) :
    (metricsConnectionClosed m).tally = m.tally := by
  unfold metricsConnectionClosed
  split <;> rfl

structure Metrics.Fits (m : Metrics) : Prop where
  historicConnections : m.historicConnections < 2 ^ 64
  currentConnections : m.currentConnections < 2 ^ 64
  failedConnections : m.failedConnections < 2 ^ 64
  bytesSent : m.bytesSent < 2 ^ 64
  bytesReceived : m.bytesReceived < 2 ^ 64

inductive Metrics.Counted (m : Metrics) : Metrics → Prop
  | opened : Counted m (metricsConnectionOpened m)
  | closed : Counted m (metricsConnectionClosed m)
  | failed : Counted m (metricsConnectionFailed m)
  | sent (n : Nat) : Counted m (metricsAddSent m n)
  | received (n : Nat) : Counted m (metricsAddReceived m n)

private theorem add64_lt (left right : Nat) : add64 left right < 2 ^ 64 :=
  Nat.mod_lt _ (by decide)

theorem metricsInit_fits : metricsInit.Fits := by
  constructor <;> decide

theorem metricsBytesTransferred_lt (m : Metrics) :
    metricsBytesTransferred m < 2 ^ 64 :=
  add64_lt _ _

theorem Metrics.Fits.counted {m next : Metrics} (fits : m.Fits)
    (counted : m.Counted next) : next.Fits := by
  obtain ⟨historic, current, failed, sent, received⟩ := fits
  cases counted with
  | opened => exact ⟨add64_lt _ _, add64_lt _ _, failed, sent, received⟩
  | closed =>
      unfold metricsConnectionClosed
      split
      · exact ⟨historic, by dsimp only; omega, failed, sent, received⟩
      · exact ⟨historic, current, failed, sent, received⟩
  | failed => exact ⟨historic, current, add64_lt _ _, sent, received⟩
  | sent n => exact ⟨historic, current, failed, add64_lt _ _, received⟩
  | received n => exact ⟨historic, current, failed, sent, add64_lt _ _⟩

/-- The counters of traffic hold values of their type. -/
structure Metrics.Bounded (m : Metrics) : Prop where
  bytesSent : m.bytesSent < 2 ^ 64
  bytesReceived : m.bytesReceived < 2 ^ 64

namespace Metrics.Bounded

variable {m next : Metrics}

theorem of_tally (bounded : m.Bounded) (same : next.tally = m.tally) :
    next.Bounded := by
  simp only [tally, Prod.mk.injEq] at same
  obtain ⟨-, sent, received⟩ := same
  exact ⟨sent ▸ bounded.bytesSent, received ▸ bounded.bytesReceived⟩

theorem addSent (bounded : m.Bounded) (n : Nat) :
    (metricsAddSent m n).Bounded :=
  ⟨add64_lt _ _, bounded.bytesReceived⟩

theorem addReceived (bounded : m.Bounded) (n : Nat) :
    (metricsAddReceived m n).Bounded :=
  ⟨bounded.bytesSent, add64_lt _ _⟩

end Metrics.Bounded

end SocksProxy
