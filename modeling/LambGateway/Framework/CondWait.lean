import Mathlib.Data.List.Basic

/-!
# Waits on a condition variable

One thread calls `pthread_cond_timedwait`, others call `pthread_cond_signal`. The wait has no
memory of its own: a signal sent while nobody is blocked is lost, and once the time limit has
passed a signal no longer changes the outcome of the wait.
-/

namespace Framework

inductive CondWait where
  | outside
  | blocked
  /-- A signal (or a spurious wake-up) has ended the wait: the call will return 0. -/
  | signalled
  /-- The time limit has ended the wait: the call will return `ETIMEDOUT`. -/
  | expired
  deriving DecidableEq, Repr

namespace CondWait

/-- `pthread_cond_signal`. -/
def signal : CondWait → CondWait
  | blocked => signalled
  | w => w

/-- The time limit passes, or the wait ends spuriously: possible only while blocked. -/
def leave (w next : CondWait) : Option CondWait :=
  if w = blocked then some next else none

@[simp] theorem signal_outside : outside.signal = outside := rfl
@[simp] theorem signal_blocked : blocked.signal = signalled := rfl
@[simp] theorem signal_signalled : signalled.signal = signalled := rfl
@[simp] theorem signal_expired : expired.signal = expired := rfl

theorem signal_eq_outside {w : CondWait} : w.signal = outside ↔ w = outside := by
  cases w <;> decide

theorem leave_eq_some {w next w' : CondWait} :
    w.leave next = some w' ↔ w = blocked ∧ next = w' := by
  unfold leave
  split <;> simp_all

end CondWait

end Framework
