import Mathlib.Logic.Relation

/-!
# Loops that go through a buffer in strides

A loop visits a position and goes on by as much as it finds there, as long as it is in front of
the end. It comes to an end exactly if no position in front of it has a stride of nothing, and
one visit after the other is all that it does.
-/

namespace Qaoed.Library

/-- The positions that are visited, if there is fuel for all of them. -/
def strides (stride : Nat → Nat) (len : Int) : Nat → Nat → Option (List Nat)
  | 0, pos => if (pos : Int) < len then none else some []
  | fuel + 1, pos =>
      if (pos : Int) < len then (strides stride len fuel (pos + stride pos)).map (pos :: ·)
      else some []

/-- The loop visits these positions, and ends. -/
inductive Visits (stride : Nat → Nat) (len : Int) : Nat → List Nat → Prop
  | ends {pos : Nat} : len ≤ pos → Visits stride len pos []
  | visit {pos : Nat} {later : List Nat} : (pos : Int) < len →
      Visits stride len (pos + stride pos) later → Visits stride len pos (pos :: later)

/-- The next position, in front of the end. -/
def Strides (stride : Nat → Nat) (len : Int) (pos next : Nat) : Prop :=
  (pos : Int) < len ∧ next = pos + stride pos

variable {stride : Nat → Nat} {len : Int} {pos : Nat} {visited : List Nat}

theorem visits_of_strides {fuel : Nat} (returns : strides stride len fuel pos = some visited) :
    Visits stride len pos visited := by
  induction fuel generalizing pos visited with
  | zero =>
      rw [strides] at returns
      split at returns
      · cases returns
      · next atEnd =>
          cases returns
          exact .ends (Int.not_lt.mp atEnd)
  | succ fuel ih =>
      rw [strides] at returns
      split at returns
      · next before =>
          obtain ⟨later, found, rfl⟩ := Option.map_eq_some_iff.mp returns
          exact .visit before (ih found)
      · next atEnd =>
          cases returns
          exact .ends (Int.not_lt.mp atEnd)

/-- As much fuel as there are visits is enough. -/
theorem Visits.strides_eq (visits : Visits stride len pos visited) :
    ∀ fuel, visited.length ≤ fuel → strides stride len fuel pos = some visited := by
  induction visits with
  | ends atEnd =>
      intro fuel _
      cases fuel with
      | zero => exact if_neg (Int.not_lt.mpr atEnd)
      | succ fuel => exact if_neg (Int.not_lt.mpr atEnd)
  | visit before later ih =>
      intro fuel enough
      cases fuel with
      | zero => cases enough
      | succ fuel => rw [strides, if_pos before, ih fuel (Nat.le_of_succ_le_succ enough), Option.map_some]

theorem Visits.deterministic {other : List Nat} (visits : Visits stride len pos visited)
    (visits' : Visits stride len pos other) : visited = other := by
  have enough := visits.strides_eq (max visited.length other.length) (Nat.le_max_left _ _)
  rw [visits'.strides_eq _ (Nat.le_max_right _ _)] at enough
  exact (Option.some.inj enough).symm

/-- A loop that ends does not stand still. -/
theorem Visits.positive (visits : Visits stride len pos visited) {reached : Nat}
    (goes : Relation.ReflTransGen (Strides stride len) pos reached) (before : (reached : Int) < len) :
    0 < stride reached := by
  induction visits with
  | @ends pos atEnd =>
      rcases goes.cases_head with rfl | ⟨next, ⟨inside, _⟩, _⟩
      · exact absurd before (Int.not_lt.mpr atEnd)
      · exact absurd inside (Int.not_lt.mpr atEnd)
  | @visit pos later inside visits ih =>
      rcases goes.cases_head with rfl | ⟨next, ⟨_, rfl⟩, onward⟩
      · refine Nat.pos_of_ne_zero fun none => ?_
        have again := Visits.visit inside visits
        rw [none, Nat.add_zero] at visits
        have longer := congrArg List.length (visits.deterministic again)
        rw [List.length_cons] at longer
        omega
      · exact ih onward

/-- A loop that does not stand still ends. -/
theorem visits_of_positive (positive : ∀ reached, Relation.ReflTransGen (Strides stride len) pos reached →
    (reached : Int) < len → 0 < stride reached) : ∃ visited, Visits stride len pos visited := by
  induction left : (len - pos).toNat using Nat.strongRecOn generalizing pos with
  | ind count ih =>
      by_cases before : (pos : Int) < len
      · have moves := positive pos .refl before
        have fewer : (len - (pos + stride pos : Nat)).toNat < count := by omega
        obtain ⟨later, visits⟩ := ih _ fewer
          (fun reached goes inside => positive reached (.head ⟨before, rfl⟩ goes) inside) rfl
        exact ⟨pos :: later, .visit before visits⟩
      · exact ⟨[], .ends (Int.not_lt.mp before)⟩

theorem visits_iff : (∃ visited, Visits stride len pos visited) ↔
    ∀ reached, Relation.ReflTransGen (Strides stride len) pos reached →
      (reached : Int) < len → 0 < stride reached := by
  constructor
  · rintro ⟨visited, visits⟩ reached goes before
    exact visits.positive goes before
  · exact visits_of_positive

end Qaoed.Library
