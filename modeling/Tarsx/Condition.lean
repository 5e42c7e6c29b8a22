/-
The bounded wait of a condition variable: the absolute time it computes from the clock,
and when it comes back without having been woken.
-/
import Mathlib.Algebra.Group.Int.Defs
import Tarsx.Foundation.Mask
import Tarsx.Foundation.Run
import Tarsx.Memory

namespace Tarsx

open Foundation

/-- The range of `int64_t`. -/
def InInt64 (z : Int) : Prop := -2 ^ 63 ≤ z ∧ z < 2 ^ 63

instance (z : Int) : Decidable (InInt64 z) := inferInstanceAs (Decidable (_ ∧ _))

/-- The result of a signed 64-bit operation. -/
def int64 (z : Int) : Except Fault Int := if InInt64 z then .ok z else .error .overflow

/-- What `gettimeofday` gives. -/
structure Timeval where
  tvSec : Int
  tvUsec : Int
  sec_range : InInt64 tvSec
  usec_range : 0 ≤ tvUsec ∧ tvUsec < 1000000
deriving DecidableEq, Repr

structure Timespec where
  tvSec : Int
  tvNsec : Int
deriving DecidableEq, Repr

/-- Points in time, in nanoseconds. -/
def Timeval.instant (now : Timeval) : Int := now.tvSec * 1000000000 + now.tvUsec * 1000

def Timespec.instant (ts : Timespec) : Int := ts.tvSec * 1000000000 + ts.tvNsec

def Timespec.Valid (ts : Timespec) : Prop := 0 ≤ ts.tvNsec ∧ ts.tvNsec < 1000000000

namespace Condition

/-- `abstime`; `now` is what `gettimeofday` gives. -/
def abstime (now : Timeval) (millsecond : Int) : Except Fault Timespec := do
  let seconds ← int64 (now.tvSec * 1000000)
  let wait ← int64 (millsecond * 1000)
  let sum ← int64 (seconds + wait)
  let it ← int64 (sum + now.tvUsec)
  let tvSec := it.tdiv 1000000
  let tvUsec := (BitVec.ofInt 64 it &&& 1000000#64).toInt
  let tvNsec ← int64 (tvUsec * 1000)
  .ok ⟨tvSec, tvNsec⟩

def einval : Int := 22

def etimedout : Int := 110

/-- `pthread_cond_timedwait` with the mutex held: what it can return, and at which time.
A deadline that is no valid time makes it return at once. -/
inductive PthreadTimedwait (ts : Timespec) (returned : Int) : Int → Prop where
  | woken (valid : ts.Valid) : PthreadTimedwait ts returned 0
  | timedOut (valid : ts.Valid) (passed : ts.instant ≤ returned) :
      PthreadTimedwait ts returned etimedout
  | refused (invalid : ¬ ts.Valid) : PthreadTimedwait ts returned einval

/-- The end of `timedWait`: what it makes of the value returned to it. -/
def waitResult (rc : Int) : Except Fault Bool :=
  if rc ≠ 0 then
    if rc = 22 then .ok false
    else if rc ≠ etimedout then .error .aborted
    else .ok false
  else .ok true

/-- `timedWait`, as it reads the clock, waits, and returns. -/
def TimedWait (now : Timeval) (millsecond returned : Int) (result : Bool) : Prop :=
  ∃ ts rc, abstime now millsecond = .ok ts ∧ PthreadTimedwait ts returned rc ∧
    waitResult rc = .ok result

end Condition

/-- `Monitor::timedWait`: the notifications are sent between the call and the reading of
the clock, and the result is that of the condition variable. -/
def Monitor.TimedWait (called : Int) (now : Timeval) (millsecond returned : Int)
    (result : Bool) : Prop :=
  called ≤ now.instant ∧ Condition.TimedWait now millsecond returned result

namespace Condition

/-- The deadline is a valid time and the one asked for, and no wait that was not woken
comes back before. -/
structure KeepsTime (now : Timeval) (millsecond : Int) : Prop where
  deadline : ∃ ts, abstime now millsecond = .ok ts ∧ ts.Valid ∧
    ts.instant = now.instant + millsecond * 1000000
  condition : ∀ returned, TimedWait now millsecond returned false →
    now.instant + millsecond * 1000000 ≤ returned
  monitor : ∀ called returned, Monitor.TimedWait called now millsecond returned false →
    called + millsecond * 1000000 ≤ returned

/-- The microseconds that `abstime` splits. -/
def total (now : Timeval) (millsecond : Int) : Int :=
  now.tvSec * 1000000 + now.tvUsec + millsecond * 1000

/-- The clock values and waits that a mask splits like a division: nothing leaves
`int64_t`, the bits of the microseconds beside the whole seconds are bits of 10^6, the
whole seconds, counted in microseconds, have none of them, and before the epoch there
are only whole seconds. -/
structure Splits (now : Timeval) (millsecond : Int) : Prop where
  seconds_fit : -2 ^ 63 ≤ now.tvSec * 1000000
  total_fits : total now millsecond < 2 ^ 63
  rest : BitVec.ofInt 64 (total now millsecond % 1000000) &&& 1000000#64 =
    BitVec.ofInt 64 (total now millsecond % 1000000)
  whole : BitVec.ofInt 64 (total now millsecond / 1000000 * 1000000) &&& 1000000#64 = 0#64
  epoch : 0 ≤ total now millsecond ∨ total now millsecond % 1000000 = 0

/-! ### The deadline -/

theorem int64_of_inInt64 {z : Int} (h : InInt64 z) : int64 z = .ok z := if_pos h

theorem inInt64_of_int64 {z value : Int} (h : int64 z = .ok value) :
    InInt64 z ∧ value = z := by
  by_cases hrange : InInt64 z
  · exact ⟨hrange, Except.ok.inj ((int64_of_inInt64 hrange).symm.trans h) |>.symm⟩
  · simp [int64, hrange] at h

/-- What the mask keeps is not negative and at most 10^6. -/
theorem kept_range (x : BitVec 64) :
    0 ≤ (x &&& 1000000#64).toInt ∧ (x &&& 1000000#64).toInt ≤ 1000000 := by
  have hle : (x &&& 1000000#64).toNat ≤ 1000000 := by
    rw [BitVec.toNat_and]
    exact Nat.and_le_right
  have hsame : (x &&& 1000000#64).toInt = (x &&& 1000000#64).toNat :=
    BitVec.toInt_eq_toNat_of_lt (by omega)
  omega

section Deadline

variable {now : Timeval} {millsecond : Int}

/-- What `abstime` computes when nothing overflows. -/
theorem abstime_of_fits (hwait : 0 ≤ millsecond ∧ millsecond < 2 ^ 31)
    (hlow : -2 ^ 63 ≤ now.tvSec * 1000000) (hhigh : total now millsecond < 2 ^ 63) :
    abstime now millsecond = .ok ⟨(total now millsecond).tdiv 1000000,
      (BitVec.ofInt 64 (total now millsecond) &&& 1000000#64).toInt * 1000⟩ := by
  have husec := now.usec_range
  have hkept := kept_range (BitVec.ofInt 64 (total now millsecond))
  have htotal : now.tvSec * 1000000 + millsecond * 1000 + now.tvUsec =
      total now millsecond := by
    rw [total]
    omega
  rw [total] at hhigh
  simp only [abstime, bind, Except.bind]
  rw [int64_of_inInt64 (z := now.tvSec * 1000000) ⟨hlow, by omega⟩]
  rw [int64_of_inInt64 (z := millsecond * 1000) ⟨by omega, by omega⟩]
  simp only
  rw [int64_of_inInt64 (z := now.tvSec * 1000000 + millsecond * 1000) ⟨by omega, by omega⟩]
  simp only
  rw [int64_of_inInt64 (z := now.tvSec * 1000000 + millsecond * 1000 + now.tvUsec)
    ⟨by omega, by omega⟩]
  simp only [htotal]
  rw [int64_of_inInt64 ⟨by omega, by omega⟩]

/-- It returns only when nothing overflows. -/
theorem fits_of_abstime {ts : Timespec}
    (hts : abstime now millsecond = .ok ts) :
    -2 ^ 63 ≤ now.tvSec * 1000000 ∧ total now millsecond < 2 ^ 63 := by
  have husec := now.usec_range
  obtain ⟨seconds, hseconds, hts⟩ := ok_of_bind_ok hts
  obtain ⟨hlow, rfl⟩ := inInt64_of_int64 hseconds
  obtain ⟨wait, hmillis, hts⟩ := ok_of_bind_ok hts
  obtain ⟨_, rfl⟩ := inInt64_of_int64 hmillis
  obtain ⟨sum, hsum, hts⟩ := ok_of_bind_ok hts
  obtain ⟨_, rfl⟩ := inInt64_of_int64 hsum
  obtain ⟨it, hit, _⟩ := ok_of_bind_ok hts
  obtain ⟨hhigh, _⟩ := inInt64_of_int64 hit
  refine ⟨hlow.1, ?_⟩
  have hlast := hhigh.2
  rw [total]
  omega

/-- The mask leaves the remainder of the division exactly when the total splits. -/
theorem kept_eq_tmod_iff (it : Int) :
    (BitVec.ofInt 64 it &&& 1000000#64).toInt = it.tmod 1000000 ↔
      BitVec.ofInt 64 (it % 1000000) &&& 1000000#64 = BitVec.ofInt 64 (it % 1000000) ∧
        BitVec.ofInt 64 (it / 1000000 * 1000000) &&& 1000000#64 = 0#64 ∧
        (0 ≤ it ∨ it % 1000000 = 0) := by
  have hkept := kept_range (BitVec.ofInt 64 it)
  have hpos : 0 ≤ it % 1000000 := Int.emod_nonneg it (by decide)
  have hlt : it % 1000000 < 1000000 := Int.emod_lt_of_pos it (by decide)
  have hself : (BitVec.ofInt 64 (it % 1000000)).toInt = it % 1000000 :=
    BitVec.toInt_ofInt_eq_self (by decide) (by omega) (by omega)
  have hwhole : BitVec.ofInt 64 it - BitVec.ofInt 64 (it % 1000000) =
      BitVec.ofInt 64 (it / 1000000 * 1000000) := by
    rw [BitVec.sub_eq_iff_eq_add, ← BitVec.ofInt_add, Int.ediv_mul_add_emod]
  by_cases hepoch : 0 ≤ it ∨ it % 1000000 = 0
  · have hrest : it.tmod 1000000 = it % 1000000 := by
      rw [Int.tmod_eq_emod, if_pos]
      · exact Int.sub_zero _
      · exact hepoch.imp_right Int.dvd_of_emod_eq_zero
    rw [hrest, ← hself, BitVec.toInt_inj, hself, and_mask_eq_iff, hwhole]
    exact ⟨fun h => ⟨h.1, h.2, hepoch⟩, fun h => ⟨h.1, h.2.1⟩⟩
  · refine iff_of_false ?_ fun h => hepoch h.2.2
    have hnegative : it.tmod 1000000 = it % 1000000 - 1000000 := by
      rw [Int.tmod_eq_emod, if_neg]
      · rfl
      · exact fun h => hepoch (h.imp_right Int.emod_eq_zero_of_dvd)
    rw [hnegative]
    omega

/-- The deadline is kept exactly for the clock values and waits that split. -/
theorem keepsTime_iff (now : Timeval) (millsecond : Int)
    (hwait : 0 ≤ millsecond ∧ millsecond < 2 ^ 31) :
    KeepsTime now millsecond ↔ Splits now millsecond := by
  have hdivision := Int.tdiv_mul_add_tmod (total now millsecond) 1000000
  have hasked : now.instant + millsecond * 1000000 = total now millsecond * 1000 := by
    rw [Timeval.instant, total]
    omega
  constructor
  · rintro ⟨⟨ts, hts, _, hexact⟩, _, _⟩
    obtain ⟨hlow, hhigh⟩ := fits_of_abstime hts
    rw [abstime_of_fits hwait hlow hhigh, Except.ok.injEq] at hts
    rw [hasked, ← hts, Timespec.instant] at hexact
    simp only at hexact
    obtain ⟨hrest, hwhole, hepoch⟩ :=
      (kept_eq_tmod_iff (total now millsecond)).mp (by omega)
    exact ⟨hlow, hhigh, hrest, hwhole, hepoch⟩
  · intro hsplits
    have hkept := (kept_eq_tmod_iff (total now millsecond)).mpr
      ⟨hsplits.rest, hsplits.whole, hsplits.epoch⟩
    have hrange := kept_range (BitVec.ofInt 64 (total now millsecond))
    have hts := abstime_of_fits hwait hsplits.seconds_fit hsplits.total_fits
    have hpart := Int.tmod_lt_of_pos (total now millsecond) (b := 1000000) (by decide)
    have hvalid : Timespec.Valid ⟨(total now millsecond).tdiv 1000000,
        (BitVec.ofInt 64 (total now millsecond) &&& 1000000#64).toInt * 1000⟩ := by
      rw [Timespec.Valid]
      simp only
      omega
    have hexact : Timespec.instant ⟨(total now millsecond).tdiv 1000000,
          (BitVec.ofInt 64 (total now millsecond) &&& 1000000#64).toInt * 1000⟩ =
        now.instant + millsecond * 1000000 := by
      rw [hasked, Timespec.instant]
      simp only
      omega
    have hcondition : ∀ returned, TimedWait now millsecond returned false →
        now.instant + millsecond * 1000000 ≤ returned := by
      rintro returned ⟨ts, rc, hcomputed, hwaited, hfalse⟩
      rw [hts, Except.ok.injEq] at hcomputed
      cases hwaited with
      | woken => simp [waitResult] at hfalse
      | timedOut _ hpassed => rwa [← hcomputed, hexact] at hpassed
      | refused hinvalid => exact absurd (hcomputed ▸ hvalid) hinvalid
    refine ⟨⟨_, hts, hvalid, hexact⟩, hcondition, ?_⟩
    rintro called returned ⟨hcalled, hwaited⟩
    have hlater := hcondition returned hwaited
    omega

/-- A clock value and a wait whose microseconds, 16384, are one bit of 10^6. -/
theorem keepsTime_of_one_bit :
    KeepsTime ⟨1700000148, 384, by decide, by decide⟩ 16 :=
  (keepsTime_iff ⟨1700000148, 384, by decide, by decide⟩ 16 (by decide)).mpr
    ⟨by decide, by decide, by decide, by decide, by decide⟩

/-- On a clock that shows half a second the deadline of a wait of one second is 828
milliseconds away, and the wait can be over then. -/
theorem deadline_early :
    ¬ KeepsTime ⟨1700000000, 500000, by decide, by decide⟩ 1000 ∧
      TimedWait ⟨1700000000, 500000, by decide, by decide⟩ 1000 1700000001328256000 false := by
  have hdeadline : abstime ⟨1700000000, 500000, by decide, by decide⟩ 1000 =
      .ok ⟨1700000001, 328256000⟩ := by decide
  have hearly : TimedWait ⟨1700000000, 500000, by decide, by decide⟩ 1000
      1700000001328256000 false :=
    ⟨_, _, hdeadline, .timedOut (by simp [Timespec.Valid]) (by simp [Timespec.instant]), rfl⟩
  refine ⟨fun hkeeps => ?_, hearly⟩
  have hpassed := hkeeps.condition 1700000001328256000 hearly
  simp [Timeval.instant] at hpassed

end Deadline

end Condition

end Tarsx
