import Mathlib
import Calculator.Expr.Basic

/-!
# Depths of trees

Measuring a tree visits its nodes one after the other. Whichever pending node is taken next, there are as
many visits as nodes, and the greatest level among these is the height of the tree.
-/

set_option autoImplicit false

namespace Calculator

namespace Expr

/-- The height of a literal is one, and that of an operation is one more than that of its higher operand. -/
def height : Expr → Nat
  | .literal _ _ => 1
  | .unary _ operand _ => operand.height + 1
  | .binary _ left right _ => max left.height right.height + 1

def operands : Expr → List Expr
  | .literal _ _ => []
  | .unary _ operand _ => [operand]
  | .binary _ left right _ => [left, right]

/-- Where the measuring of a tree stands. -/
structure Survey where
  /-- The nodes that are to be visited, each with its level. -/
  pending : List (Expr × Nat)
  /-- The greatest level of those that were visited. -/
  deepest : Nat

/-- The survey of a tree before any visit. -/
def survey (e : Expr) : Survey where
  pending := [(e, 1)]
  deepest := 0

/-- One visit: any of the pending nodes is taken, and its operands join the others anywhere. -/
inductive Visit : Survey → Survey → Prop where
  | take {nodes e level others pending deepest} :
      nodes.Perm ((e, level) :: others) →
      pending.Perm (e.operands.map (·, level + 1) ++ others) →
      Visit ⟨nodes, deepest⟩ ⟨pending, max deepest level⟩

/-- `Visits count s t`: so many visits, in some order, lead from `s` to `t`. -/
inductive Visits : Nat → Survey → Survey → Prop where
  | done {s} : Visits 0 s s
  | more {count s t u} : Visit s t → Visits count t u → Visits (count + 1) s u

theorem Visits.trans {first second : Nat} {s t u : Survey} (visits : Visits first s t)
    (others : Visits second t u) : Visits (first + second) s u := by
  induction visits with
  | done => simpa using others
  | more visit _ ih =>
      rw [Nat.add_right_comm]
      exact .more visit (ih others)

/-! ## Levels -/

/-- Whether no node, visited or not, has a level greater than `bound`. -/
def Survey.Within (bound : Nat) (s : Survey) : Prop :=
  s.deepest ≤ bound ∧ ∀ node ∈ s.pending, node.1.height + node.2 ≤ bound + 1

theorem height_add_le_iff (e : Expr) (level bound : Nat) :
    e.height + level ≤ bound + 1 ↔
      level ≤ bound ∧ ∀ operand ∈ e.operands, operand.height + (level + 1) ≤ bound + 1 := by
  cases e with
  | literal =>
      simp [height, operands]
      omega
  | unary =>
      simp only [height, operands, List.mem_singleton, forall_eq]
      omega
  | binary =>
      simp only [height, operands, List.mem_cons, List.not_mem_nil, or_false, forall_eq_or_imp,
        forall_eq]
      omega

/-- The invariant of a visit: it changes no bound on the levels. -/
theorem Visit.within_iff {s t : Survey} (visit : Visit s t) (bound : Nat) :
    s.Within bound ↔ t.Within bound := by
  cases visit with
  | @take nodes e level others pending deepest taken joined =>
      have node := height_add_le_iff e level bound
      simp only [Survey.Within, taken.mem_iff, joined.mem_iff, List.mem_append, List.mem_cons,
        List.mem_map]
      constructor
      · rintro ⟨seen, unseen⟩
        obtain ⟨here, below⟩ := node.mp (unseen (e, level) (.inl rfl))
        refine ⟨Nat.max_le.mpr ⟨seen, here⟩, ?_⟩
        rintro _ (⟨operand, member, rfl⟩ | other)
        · exact below operand member
        · exact unseen _ (.inr other)
      · rintro ⟨seen, unseen⟩
        obtain ⟨seen, here⟩ := Nat.max_le.mp seen
        refine ⟨seen, ?_⟩
        rintro _ (rfl | other)
        · exact node.mpr ⟨here, fun operand member => unseen _ (.inl ⟨operand, member, rfl⟩)⟩
        · exact unseen _ (.inr other)

theorem Visits.within_iff {count : Nat} {s t : Survey} (visits : Visits count s t) (bound : Nat) :
    s.Within bound ↔ t.Within bound := by
  induction visits with
  | done => rfl
  | more visit _ ih => exact (visit.within_iff bound).trans ih

theorem Visits.deepest_eq {e : Expr} {count : Nat} {t : Survey} (visits : Visits count e.survey t)
    (finished : t.pending = []) : t.deepest = e.height := by
  have bounds (bound : Nat) : e.height ≤ bound ↔ t.deepest ≤ bound := by
    have same := visits.within_iff bound
    simpa [Survey.Within, survey, finished] using same
  exact Nat.le_antisymm ((bounds _).mp (Nat.le_refl _)) ((bounds _).mpr (Nat.le_refl _))

/-! ## Numbers of visits -/

theorem height_le_size (e : Expr) : e.height ≤ e.size := by
  induction e with
  | literal => exact Nat.le_refl 1
  | unary operator operand position ih => exact Nat.succ_le_succ ih
  | binary operator left right position leftIH rightIH =>
      simp only [height, size]
      omega

theorem pendingSize_eq_sum (pending : List (Expr × Nat)) :
    pendingSize pending = (pending.map fun node => node.1.size).sum := by
  induction pending with
  | nil => rfl
  | cons node pending ih => rw [pendingSize, ih, List.map_cons, List.sum_cons]

theorem size_eq_sum (e : Expr) : e.size = (e.operands.map fun operand => operand.size).sum + 1 := by
  cases e <;> simp [size, operands]

theorem pendingSize_eq_zero_iff {pending : List (Expr × Nat)} :
    pendingSize pending = 0 ↔ pending = [] := by
  cases pending with
  | nil => simp [pendingSize]
  | cons node pending =>
      have positive := node.1.size_pos
      simp only [pendingSize, reduceCtorEq, iff_false]
      omega

/-- Every visit takes one node away. -/
theorem Visit.pendingSize_eq {s t : Survey} (visit : Visit s t) :
    pendingSize s.pending = pendingSize t.pending + 1 := by
  cases visit with
  | @take nodes e level others pending deepest taken joined =>
      have before := (taken.map fun node => node.1.size).sum_nat
      have after := (joined.map fun node => node.1.size).sum_nat
      simp only [List.map_cons, List.map_append, List.map_map, List.sum_cons, List.sum_append,
        Function.comp_def] at before after
      rw [pendingSize_eq_sum, pendingSize_eq_sum, before, after, size_eq_sum e]
      omega

theorem Visits.pendingSize_eq {count : Nat} {s t : Survey} (visits : Visits count s t) :
    pendingSize s.pending = pendingSize t.pending + count := by
  induction visits with
  | done => rfl
  | more visit _ ih => rw [visit.pendingSize_eq, ih, Nat.add_assoc]

/-! ## The order of the measuring -/

/-- Measuring takes the first pending node every time, and the right operand before the left one. -/
theorem visits_deepestLevel (pending : List (Expr × Nat)) (deepest : Nat) :
    Visits (pendingSize pending) ⟨pending, deepest⟩ ⟨[], deepestLevel pending deepest⟩ := by
  fun_induction deepestLevel pending deepest with
  | case1 => exact .done
  | case2 value position level rest deepest ih =>
      rw [pendingSize, size, Nat.add_comm]
      exact .more (.take (.refl _) (.refl _)) ih
  | case3 operator operand position level rest deepest ih =>
      rw [pendingSize, size, Nat.add_right_comm]
      exact .more (.take (.refl _) (.refl _)) ih
  | case4 operator left right position level rest deepest ih =>
      have sizes : pendingSize ((.binary operator left right position, level) :: rest) =
          pendingSize ((right, level + 1) :: (left, level + 1) :: rest) + 1 := by
        simp only [pendingSize, size]
        omega
      rw [sizes]
      exact .more (.take (.refl _) (.swap _ _ _)) ih

theorem pendingSize_survey (e : Expr) : pendingSize e.survey.pending = e.size :=
  Nat.add_zero _

theorem visits_survey (e : Expr) : Visits e.size e.survey ⟨[], e.depth⟩ := by
  rw [← pendingSize_survey]
  exact visits_deepestLevel _ _

theorem depth_eq (e : Expr) : e.depth = e.height :=
  (visits_survey e).deepest_eq rfl

/-- Measuring a tree gives its height, and so do visits in any other order. They can always be gone on
with until no node is pending, which is so after as many visits as the tree has nodes and not before; then
the greatest level seen is the height. -/
theorem depth_eq_height (e : Expr) :
    e.depth = e.height ∧
    Visits e.size e.survey ⟨[], e.depth⟩ ∧
    ∀ count t, Visits count e.survey t →
      count ≤ e.size ∧ (t.pending = [] ↔ count = e.size) ∧
      (t.pending = [] → t.deepest = e.height) ∧
      Visits (e.size - count) t ⟨[], e.height⟩ := by
  refine ⟨depth_eq e, visits_survey e, ?_⟩
  intro count t visits
  have sizes := visits.pendingSize_eq
  rw [pendingSize_survey] at sizes
  refine ⟨by omega, ?_, visits.deepest_eq, ?_⟩
  · rw [← pendingSize_eq_zero_iff]
    omega
  · have others := visits_deepestLevel t.pending t.deepest
    rw [← (visits.trans others).deepest_eq rfl]
    have left : e.size - count = pendingSize t.pending := by omega
    exact left ▸ others

/-- In `1 + -2` the literal on the left may be visited between the sign and its operand. -/
theorem depth_eq_height_interleaved :
    Visits 4 (Expr.binary .add (.literal 1 0) (.unary .neg (.literal 2 5) 4) 2).survey ⟨[], 3⟩ ∧
    (Expr.binary .add (.literal 1 0) (.unary .neg (.literal 2 5) 4) 2).height = 3 := by
  have visits : Visits 4
      (Expr.binary .add (.literal 1 0) (.unary .neg (.literal 2 5) 4) 2).survey ⟨[], 3⟩ :=
    .more (.take (.refl _) (.refl _)) <|
      .more (.take (.swap _ _ _) (.refl _)) <|
        .more (.take (.swap _ _ _) (.refl _)) <|
          .more (.take (.refl _) (.refl _)) .done
  obtain ⟨_, _, orders⟩ := depth_eq_height (.binary .add (.literal 1 0) (.unary .neg (.literal 2 5) 4) 2)
  obtain ⟨_, _, deepest, _⟩ := orders 4 _ visits
  exact ⟨visits, (deepest rfl).symm⟩

end Expr

end Calculator
