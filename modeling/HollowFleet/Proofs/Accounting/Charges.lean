import HollowFleet.Accounting.Ledger
import HollowFleet.Proofs.Table

/-!
# What accounts add up to

An account keeps the sum of its charges beside them and changes it by what comes and goes. The
sum is capped, so it can fall behind: `Account.Covered` says that it is never more than the
charges add up to, and `Account.Exact` that it is exactly that. The first survives every change;
the second survives as long as the charges themselves stay below the cap (`Exact.step`).

Memory and processor time are treated alike, and nothing here relates the two to each other.

An account changes in three ways while its node is tracked (`Account.Step`): a charge comes, a
charge goes, and the node reports itself anew. Each way is described by what it does to the sum of
the charges (`charged_charge`, `charged_discharge`) and to what is used (`of_used_charge`,
`of_used_discharge`), and both invariants follow from these four equations by arithmetic. A charge
that replaces another one first takes it off, which is where the cap matters: what is used may have
been cut off when the other charge came, and then too much is taken off, so only the bound is left.

Once the charges have passed the cap, an account does not become exact again by dropping charges;
only a new account does (`exact_of_new`). With no charges left, however, nothing is used
(`Covered.used_eq_zero`).
-/

namespace HollowFleet

/-- What an amount is an amount of. -/
inductive Resource where
  | memory
  | processor
deriving DecidableEq, Repr

namespace Amounts

/-- The amount of a resource. -/
def of (x : Amounts) : Resource → ℕ
  | .memory => x.memory
  | .processor => x.millis

@[simp]
theorem of_zero (r : Resource) : ({} : Amounts).of r = 0 := by cases r <;> rfl

/-- A sum is cut off at the greatest amount, for each resource by itself. -/
@[simp]
theorem of_add (x y : Amounts) (r : Resource) :
    (x + y).of r = min (x.of r + y.of r) Quantity.greatestAmount := by
  cases r <;> rfl

@[simp]
theorem of_sub (x y : Amounts) (r : Resource) : (x - y).of r = x.of r - y.of r := by
  cases r <;> rfl

/-- Amounts that are nothing of every resource are nothing. -/
theorem eq_zero_of_forall {x : Amounts} (h : ∀ r, x.of r = 0) : x = {} :=
  Amounts.ext (h .memory) (h .processor)

end Amounts

namespace Account

/-- What the charges of an account add up to, without any cap. -/
def charged (a : Account) (r : Resource) : ℕ := a.charges.total fun x ↦ x.of r

/-- The charge of a pod, nothing if there is none. -/
def chargeOf (a : Account) (key : String) (r : Resource) : ℕ :=
  ((a.charges.find? key).map fun x ↦ x.of r).getD 0

/-- No more is used than the charges add up to. -/
def Covered (a : Account) : Prop := ∀ r, a.used.of r ≤ a.charged r

/-- Of a resource, as much is used as the charges add up to. -/
def Exact (a : Account) (r : Resource) : Prop := a.used.of r = a.charged r

/-- One account becomes another while its node stays tracked. -/
inductive Step : Account → Account → Prop where
  /-- Nothing changes. -/
  | stay (a : Account) : Step a a
  /-- The node reports. -/
  | report (a : Account) (capacity : Amounts) (address : Option String) :
      Step a (a.report capacity address)
  /-- A pod is charged. -/
  | charge (a : Account) (key : String) (amount : Amounts) : Step a (a.charge key amount)
  /-- The charge of a pod is dropped. -/
  | discharge (a : Account) (key : String) : Step a (a.discharge key)

/-! ### Charging and discharging -/

theorem chargeOf_le_charged (a : Account) (key : String) (r : Resource) :
    a.chargeOf key r ≤ a.charged r := by
  have h := a.charges.total_erase (fun x ↦ x.of r) key
  rw [chargeOf, charged]
  omega

/-- With a charge the sum changes by what comes and by what it replaces. -/
theorem charged_charge (a : Account) (key : String) (amount : Amounts) (r : Resource) :
    (a.charge key amount).charged r = a.charged r - a.chargeOf key r + amount.of r := by
  have h := a.charges.total_insert (fun x ↦ x.of r) key amount
  have hle := a.chargeOf_le_charged key r
  simp only [charged, chargeOf, charge] at hle ⊢
  omega

theorem of_used_charge (a : Account) (key : String) (amount : Amounts) (r : Resource) :
    (a.charge key amount).used.of r =
      min (a.used.of r - a.chargeOf key r + amount.of r) Quantity.greatestAmount := by
  cases h : a.charges.find? key <;> simp [charge, chargeOf, h]

theorem charged_discharge (a : Account) (key : String) (r : Resource) :
    (a.discharge key).charged r = a.charged r - a.chargeOf key r := by
  cases h : a.charges.find? key with
  | none => simp [discharge, chargeOf, charged, h]
  | some previous =>
    have herase := a.charges.total_erase (fun x ↦ x.of r) key
    simp only [h, Option.map_some, Option.getD_some] at herase
    simp only [discharge, chargeOf, charged, h, Option.map_some, Option.getD_some]
    omega

theorem of_used_discharge (a : Account) (key : String) (r : Resource) :
    (a.discharge key).used.of r = a.used.of r - a.chargeOf key r := by
  cases h : a.charges.find? key <;> simp [discharge, chargeOf, h]

/-! ### Steps -/

/-- An account that was just opened is exact. -/
theorem exact_of_new {a : Account} (hused : a.used = {}) (hcharges : a.charges = ∅)
    (r : Resource) : a.Exact r := by
  rw [Exact, charged, hused, hcharges, Table.total_empty, Amounts.of_zero]

theorem Covered.of_exact {a : Account} (h : ∀ r, a.Exact r) : a.Covered := fun r ↦
  Nat.le_of_eq (h r)

/-- An account without charges uses nothing. -/
theorem Covered.used_eq_zero {a : Account} (h : a.Covered) (hnone : a.charges.keys = []) :
    a.used = {} := by
  refine Amounts.eq_zero_of_forall fun r ↦ Nat.le_zero.1 ?_
  have hr := h r
  rwa [charged, Table.total_eq_zero_of_keys_eq_nil hnone] at hr

/-- **The bound survives every step.** What goes is taken off both sides, and what comes is
added to both, perhaps not in full to what is used. -/
theorem Covered.step {a b : Account} (h : a.Covered) (hstep : Step a b) : b.Covered := by
  intro r
  have hr := h r
  cases hstep with
  | stay => exact hr
  | report => exact hr
  | charge key amount =>
    rw [of_used_charge, charged_charge]
    calc min (a.used.of r - a.chargeOf key r + amount.of r) Quantity.greatestAmount
        ≤ a.used.of r - a.chargeOf key r + amount.of r := Nat.min_le_left _ _
      _ ≤ a.charged r - a.chargeOf key r + amount.of r := by omega
  | discharge key =>
    rw [of_used_discharge, charged_discharge]
    omega

/-- **Exactness survives below the cap.** A charge that is replaced is part of what is used, so
taking it off loses nothing. -/
theorem Exact.step {a b : Account} {r : Resource} (h : a.Exact r) (hstep : Step a b)
    (hcap : b.charged r ≤ Quantity.greatestAmount) : b.Exact r := by
  rw [Exact] at h ⊢
  cases hstep with
  | stay => exact h
  | report => exact h
  | charge key amount =>
    -- by `h` what is used holds the old charge in full, so taking it off is not cut at zero
    rw [charged_charge] at hcap
    rw [of_used_charge, charged_charge, h, Nat.min_eq_left hcap]
  | discharge key => rw [of_used_discharge, charged_discharge, h]

end Account

end HollowFleet
