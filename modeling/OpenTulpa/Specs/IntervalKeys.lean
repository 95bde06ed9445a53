import Mathlib.Tactic.Ring
import Mathlib.Tactic.Linarith
import OpenTulpa.Library.Text
import OpenTulpa.Specs.Executions

/-! The keys that scheduled firings are claimed under. The key of an interval trigger is read off the clock when a
firing is executed, so the delays of two firings can bring them into one bucket. Times are in microseconds since the
epoch. -/

namespace OpenTulpa.Specs.IntervalKeys

open Library Executions

section Model

structure IntervalTrigger where
  everySeconds : Nat
  positive : 1 ≤ everySeconds

inductive TriggerSource where
  | «at» (runAt : Int)
  | cron
  | interval (trigger : IntervalTrigger)
  | event

def second : Int := 1000000

/-- `int(now.timestamp()) // every_seconds` -/
def bucket (trigger : IntervalTrigger) (now : Int) : Int := now.tdiv second / trigger.everySeconds

def scheduledFireKey (isoformat : Int → String) (now : Int) : TriggerSource → Except String String
  | .at runAt => .ok (isoformat runAt)
  | .cron => .ok (isoformat (now - now % (60 * second)))
  | .interval trigger => .ok s!"interval:{bucket trigger now}"
  | .event => .error "event triggers do not have scheduled fire keys"

def IntervalTrigger.period (trigger : IntervalTrigger) : Int := trigger.everySeconds * second

/-- The time a run is scheduled for. -/
def scheduledAt (start : Int) (trigger : IntervalTrigger) (run : Nat) : Int := start + run * trigger.period

/-- The first microsecond of a bucket; the seconds before the epoch are rounded up. -/
def bucketStart (trigger : IntervalTrigger) (number : Int) : Int :=
  if 0 < number then number * trigger.period else (number * trigger.everySeconds - 1) * second + 1

/-- A delay within the misfire grace. -/
def Graced (delay : Int) : Prop := 0 ≤ delay ∧ delay ≤ second

/-- The firings of two runs have keys of their own. -/
def OwnKeys (isoformat : Int → String) (start : Int) (trigger : IntervalTrigger) (first later : Nat)
    (firstDelay laterDelay : Int) : Prop :=
  scheduledFireKey isoformat (scheduledAt start trigger first + firstDelay) (.interval trigger) ≠
    scheduledFireKey isoformat (scheduledAt start trigger later + laterDelay) (.interval trigger)

end Model

section Keys

variable {trigger : IntervalTrigger}

theorem toString_int_injective {first second : Int} (same : toString first = toString second) : first = second := by
  have signed (n m : Nat) : toString (Int.ofNat n) ≠ toString (Int.negSucc m) := by
    intro equal
    have texts : Nat.toDigits 10 n = '-' :: Nat.toDigits 10 (m + 1) := by
      have whole := congrArg String.toList equal
      change (String.ofList (Nat.toDigits 10 n)).toList = ("-" ++ String.ofList (Nat.toDigits 10 (m + 1))).toList at whole
      simpa using whole
    have member : '-' ∈ Nat.toDigits 10 n := by
      rw [texts]
      exact List.mem_cons_self
    have digit : '-'.isDigit = true := Nat.isDigit_of_mem_toDigits (by decide) (Nat.le_refl 10) member
    exact absurd digit (by decide)
  cases first with
  | ofNat n => cases second with
    | ofNat m => exact congrArg Int.ofNat (Text.toString_injective same)
    | negSucc m => exact absurd same (signed n m)
  | negSucc n => cases second with
    | ofNat m => exact absurd same.symm (signed m n)
    | negSucc m =>
      have texts : toString (n + 1) = toString (m + 1) := by
        have whole := congrArg String.toList same
        change ("-" ++ toString (n + 1)).toList = ("-" ++ toString (m + 1)).toList at whole
        rw [String.toList_append, String.toList_append] at whole
        exact String.toList_inj.mp (List.append_cancel_left whole)
      exact congrArg Int.negSucc (Nat.succ_injective (Text.toString_injective texts))

theorem fireKey_eq_iff (isoformat : Int → String) (now other : Int) :
    scheduledFireKey isoformat now (.interval trigger) = scheduledFireKey isoformat other (.interval trigger) ↔
      bucket trigger now = bucket trigger other := by
  constructor
  · intro same
    have texts : "interval:" ++ toString (bucket trigger now) = "interval:" ++ toString (bucket trigger other) :=
      Except.ok.inj same
    have lists := congrArg String.toList texts
    rw [String.toList_append, String.toList_append] at lists
    exact toString_int_injective (String.toList_inj.mp (List.append_cancel_left lists))
  · intro same
    rw [scheduledFireKey, scheduledFireKey, same]

theorem le_tdiv_second (bound now : Int) :
    bound ≤ now.tdiv second ↔ if 0 < bound then bound * second ≤ now else (bound - 1) * second + 1 ≤ now := by
  rw [second]
  rcases Int.le_total 0 now with after | before
  · rw [Int.tdiv_eq_ediv_of_nonneg after]
    split <;> omega
  · obtain ⟨ago, rfl⟩ : ∃ ago, now = -ago := ⟨-now, (Int.neg_neg now).symm⟩
    rw [Int.neg_tdiv, Int.tdiv_eq_ediv_of_nonneg (by omega)]
    split <;> omega

/-- A bucket begins at its start. -/
theorem le_bucket_iff (number now : Int) : number ≤ bucket trigger now ↔ bucketStart trigger number ≤ now := by
  have positive : (0 : Int) < trigger.everySeconds := by exact_mod_cast trigger.positive
  rw [bucket, Int.le_ediv_iff_mul_le positive, le_tdiv_second, bucketStart, IntervalTrigger.period]
  have sign : 0 < number * trigger.everySeconds ↔ 0 < number := by
    constructor
    · exact fun product => (pos_iff_pos_of_mul_pos product).mpr positive
    · exact fun factor => Int.mul_pos factor positive
  simp only [sign, mul_assoc]
  split <;> rfl

theorem second_le_period (trigger : IntervalTrigger) : second ≤ trigger.period := by
  have positive : (1 : Int) ≤ trigger.everySeconds := by exact_mod_cast trigger.positive
  rw [IntervalTrigger.period]
  have scaled := Int.mul_le_mul_of_nonneg_right positive (show 0 ≤ second by decide)
  omega

theorem bucket_of_nonneg {now : Int} (after : 0 ≤ now) : bucket trigger now = now / trigger.period := by
  rw [bucket, Int.tdiv_eq_ediv_of_nonneg after, IntervalTrigger.period, mul_comm]
  exact Int.ediv_ediv_of_nonneg (by decide)

/-- Firings of different runs come in their order. -/
theorem firings_ordered {start firstDelay laterDelay : Int} {first later : Nat} (order : first < later)
    (firstGraced : Graced firstDelay) (laterGraced : Graced laterDelay) :
    scheduledAt start trigger first + firstDelay ≤ scheduledAt start trigger later + laterDelay := by
  obtain ⟨runs, rfl⟩ := Nat.exists_eq_add_of_lt order
  have period := second_le_period trigger
  have positive : 0 ≤ (runs : Int) * trigger.period := Int.mul_nonneg (Int.natCast_nonneg _) (by rw [second] at period; omega)
  obtain ⟨_, most⟩ := firstGraced
  obtain ⟨least, _⟩ := laterGraced
  have spread : scheduledAt start trigger (first + runs + 1) =
      scheduledAt start trigger first + runs * trigger.period + trigger.period := by
    rw [scheduledAt, scheduledAt]
    push_cast
    ring
  rw [spread]
  linarith

theorem bucket_mono {now other : Int} (order : now ≤ other) : bucket trigger now ≤ bucket trigger other :=
  (le_bucket_iff _ _).mpr (((le_bucket_iff _ _).mp (Int.le_refl _)).trans order)

/-- Behind the epoch, only two consecutive runs can share a key, and then a bucket begins between their delays. -/
theorem shared_iff {start firstDelay laterDelay : Int} {first later : Nat} (after : 0 ≤ start) (order : first < later)
    (firstGraced : Graced firstDelay) (laterGraced : Graced laterDelay) :
    bucket trigger (scheduledAt start trigger first + firstDelay) = bucket trigger (scheduledAt start trigger later + laterDelay) ↔
      later = first + 1 ∧ ∃ number, scheduledAt start trigger first + laterDelay < number * trigger.period ∧
        number * trigger.period ≤ scheduledAt start trigger first + firstDelay := by
  obtain ⟨runs, rfl⟩ := Nat.exists_eq_add_of_lt order
  have period := second_le_period trigger
  have positive : 0 < trigger.period := by rw [second] at period; omega
  have spread : scheduledAt start trigger (first + runs + 1) + laterDelay =
      scheduledAt start trigger first + laterDelay + (runs + 1) * trigger.period := by
    rw [scheduledAt, scheduledAt]
    push_cast
    ring
  have begun : 0 ≤ scheduledAt start trigger first :=
    Int.add_nonneg after (Int.mul_nonneg (Int.natCast_nonneg _) positive.le)
  obtain ⟨firstLeast, firstMost⟩ := firstGraced
  obtain ⟨laterLeast, laterMost⟩ := laterGraced
  have behind : 0 ≤ (runs + 1 : Int) * trigger.period := Int.mul_nonneg (by omega) positive.le
  rw [bucket_of_nonneg (by omega), bucket_of_nonneg (by rw [spread]; omega), spread,
    Int.add_mul_ediv_right _ _ positive.ne']
  generalize scheduledAt start trigger first = at_ at *
  have near : (at_ + firstDelay) / trigger.period ≤ (at_ + laterDelay) / trigger.period + 1 := by
    have most : at_ + firstDelay ≤ at_ + laterDelay + 1 * trigger.period := by omega
    have divided := Int.ediv_le_ediv positive most
    rwa [Int.add_mul_ediv_right _ _ positive.ne'] at divided
  have between (number : Int) : at_ + laterDelay < number * trigger.period ∧ number * trigger.period ≤ at_ + firstDelay ↔
      (at_ + laterDelay) / trigger.period < number ∧ number ≤ (at_ + firstDelay) / trigger.period :=
    and_congr (Int.ediv_lt_iff_lt_mul positive).symm (Int.le_ediv_iff_mul_le positive).symm
  simp only [between]
  constructor
  · intro same
    refine ⟨by omega, (at_ + firstDelay) / trigger.period, by omega, Int.le_refl _⟩
  · rintro ⟨_, number, lower, upper⟩
    omega

/-- The claim of another firing does not stand in the way of a firing that has a key of its own. -/
theorem claim_after {store stored : TriggerExecutionStore} {key other : ExecutionKey} (apart : key ≠ other)
    (free : store.execution other = none) {lease now token : Nat} {granted : Option Nat}
    (claimed : claim store key lease now token = .ok (stored, granted)) {otherLease : Nat} (positive : otherLease ≠ 0)
    (later otherToken : Nat) :
    (claim stored other otherLease later otherToken).map Prod.snd = .ok (some otherToken) := by
  have still : stored.execution other = none := by
    rw [claim] at claimed
    split at claimed
    · cases claimed
    · split at claimed
      · obtain ⟨rfl, _⟩ := Prod.mk.inj (Except.ok.inj claimed)
        rw [TriggerExecutionStore.execution] at free ⊢
        rw [List.find?_append, free]
        simp [apart]
      · obtain ⟨rfl, _⟩ := Prod.mk.inj (Except.ok.inj claimed)
        have kept := Rows.find_update (fun row : TriggerExecution => row.key == other)
          (fun row => row.key == key && reclaimable now row) (reclaimed token (now + lease) now) store.executions
          (fun _ _ => rfl)
        exact kept.trans (by rw [TriggerExecutionStore.execution] at free; rw [free]; rfl)
  rw [claim, if_neg positive, still]
  rfl

variable (isoformat : Int → String)

def everyTenSeconds : IntervalTrigger := ⟨10, by decide⟩

end Keys

end OpenTulpa.Specs.IntervalKeys
