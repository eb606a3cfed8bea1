/-! Duplicate-free ascending lists: the order in which recorded ids, arities and names are
handed out, whatever the order they came in. -/
namespace FactoryLowering

section

variable {α : Type} [LT α] [DecidableLT α] [DecidableEq α]

/-- Puts an element in its place, unless it is there already. -/
def insertAscending (a : α) : List α → List α
  | [] => [a]
  | b :: bs => if a = b then b :: bs else if a < b then a :: b :: bs else b :: insertAscending a bs

def ascending (xs : List α) : List α := xs.foldr insertAscending []

@[simp] theorem mem_insertAscending {a x : α} {xs : List α} :
    x ∈ insertAscending a xs ↔ x = a ∨ x ∈ xs := by
  induction xs with
  | nil => simp [insertAscending]
  | cons b bs ih =>
    unfold insertAscending
    split
    · next same => subst same; simp
    · split
      · simp
      · simp only [List.mem_cons, ih]
        constructor
        · rintro (h | h | h) <;> simp [h]
        · rintro (h | h | h) <;> simp [h]

@[simp] theorem mem_ascending {x : α} {xs : List α} : x ∈ ascending xs ↔ x ∈ xs := by
  induction xs with
  | nil => simp [ascending]
  | cons a as ih => simpa [ascending] using or_congr_right ih

theorem pairwise_insertAscending (trans : ∀ x y z : α, x < y → y < z → x < z)
    (total : ∀ x y : α, x ≠ y → ¬ x < y → y < x) (a : α) {xs : List α}
    (h : xs.Pairwise (· < ·)) : (insertAscending a xs).Pairwise (· < ·) := by
  induction xs with
  | nil => simp [insertAscending]
  | cons b bs ih =>
    obtain ⟨below, rest⟩ := List.pairwise_cons.mp h
    unfold insertAscending
    split
    · exact h
    · next different =>
      split
      · next less =>
        refine List.pairwise_cons.mpr ⟨?_, h⟩
        intro x member
        rcases List.mem_cons.mp member with rfl | later
        · exact less
        · exact trans a b x less (below x later)
      · next notLess =>
        refine List.pairwise_cons.mpr ⟨?_, ih rest⟩
        intro x member
        rcases mem_insertAscending.mp member with rfl | later
        · exact total x b different notLess
        · exact below x later

theorem pairwise_ascending (trans : ∀ x y z : α, x < y → y < z → x < z)
    (total : ∀ x y : α, x ≠ y → ¬ x < y → y < x) (xs : List α) :
    (ascending xs).Pairwise (· < ·) := by
  induction xs with
  | nil => exact List.Pairwise.nil
  | cons a as ih => exact pairwise_insertAscending trans total a ih

end

theorem pairwise_lt_ascending (xs : List Nat) : (ascending xs).Pairwise (· < ·) :=
  pairwise_ascending (fun _ _ _ => Nat.lt_trans)
    (fun _ _ ne nlt => Nat.lt_of_le_of_ne (Nat.le_of_not_lt nlt) (Ne.symm ne)) xs

theorem ascending_congr {xs ys : List Nat} (h : ∀ a, a ∈ xs ↔ a ∈ ys) :
    ascending xs = ascending ys := by
  have hnodup : ∀ zs : List Nat, (ascending zs).Nodup :=
    fun zs => (pairwise_lt_ascending zs).imp Nat.ne_of_lt
  have hperm : (ascending xs).Perm (ascending ys) :=
    (List.perm_ext_iff_of_nodup (hnodup xs) (hnodup ys)).mpr fun a => by simp [h]
  exact hperm.eq_of_pairwise (fun _ _ _ _ hlt hgt => absurd hgt (Nat.lt_asymm hlt))
    (pairwise_lt_ascending xs) (pairwise_lt_ascending ys)

end FactoryLowering
