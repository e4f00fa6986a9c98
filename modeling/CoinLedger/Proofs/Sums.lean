import CoinLedger.Transaction.Basic

/-!
Sums of numbers along lists: how they split, and that a sum of sums may be taken in either order.
-/

namespace CoinLedger

@[simp] theorem total_nil : total [] = 0 := rfl

@[simp] theorem total_cons (n : Nat) (values : List Nat) : total (n :: values) = n + total values :=
  rfl

@[simp] theorem total_append (values more : List Nat) :
    total (values ++ more) = total values + total more := by
  induction values with
  | nil => simp
  | cons n values ih => simp [ih, Nat.add_assoc]

theorem total_perm {values shuffled : List Nat} (h : values.Perm shuffled) :
    total values = total shuffled := h.sum_nat

variable {α β : Type}

theorem total_map_eq_zero {l : List α} {w : α → Nat} (h : ∀ a ∈ l, w a = 0) :
    total (l.map w) = 0 := by
  induction l with
  | nil => rfl
  | cons a l ih =>
    rw [List.map_cons, total_cons, h a (by simp), ih fun b hb => h b (by simp [hb])]

theorem total_map_const (l : List α) (n : Nat) : total (l.map fun _ => n) = n * l.length := by
  induction l with
  | nil => rfl
  | cons a l ih =>
    rw [List.map_cons, total_cons, ih, List.length_cons, Nat.mul_succ, Nat.add_comm]

theorem total_map_add (l : List α) (v w : α → Nat) :
    total (l.map fun a => v a + w a) = total (l.map v) + total (l.map w) := by
  induction l with
  | nil => rfl
  | cons a l ih =>
    simp only [List.map_cons, total_cons, ih]
    omega

theorem total_map_le {l : List α} {v w : α → Nat} (h : ∀ a ∈ l, v a ≤ w a) :
    total (l.map v) ≤ total (l.map w) := by
  induction l with
  | nil => exact Nat.le_refl _
  | cons a l ih => exact Nat.add_le_add (h a (by simp)) (ih fun b hb => h b (by simp [hb]))

theorem le_total_map {l : List α} (w : α → Nat) {a : α} (member : a ∈ l) :
    w a ≤ total (l.map w) := by
  induction l with
  | nil => exact nomatch member
  | cons b l ih =>
    rw [List.map_cons, total_cons]
    rcases List.mem_cons.1 member with rfl | member
    · exact Nat.le_add_right _ _
    · exact Nat.le_trans (ih member) (Nat.le_add_left _ _)

theorem total_filter_add_total_filter_not (l : List α) (p : α → Bool) (w : α → Nat) :
    total ((l.filter p).map w) + total ((l.filter fun a => !p a).map w) = total (l.map w) := by
  induction l with
  | nil => rfl
  | cons a l ih =>
    cases hp : p a with
    | true =>
      simp only [List.filter_cons, hp, Bool.not_true, if_true, List.map_cons, total_cons]
      simp only [Bool.false_eq_true, if_false]
      omega
    | false =>
      simp only [List.filter_cons, hp, Bool.not_false, if_true, List.map_cons, total_cons]
      simp only [Bool.false_eq_true, if_false]
      omega

theorem total_map_ite (l : List α) (p : α → Prop) [DecidablePred p] (w : α → Nat) :
    total (l.map fun a => if p a then w a else 0) = total ((l.filter fun a => p a).map w) := by
  induction l with
  | nil => rfl
  | cons a l ih =>
    rw [List.map_cons, total_cons, ih]
    by_cases hp : p a <;> simp [hp]

theorem total_map_total_comm (l : List α) (m : List β) (w : α → β → Nat) :
    total (l.map fun a => total (m.map (w a))) = total (m.map fun b => total (l.map (w · b))) := by
  induction l with
  | nil => exact (total_map_eq_zero fun _ _ => rfl).symm
  | cons a l ih => simp only [List.map_cons, total_cons, total_map_add, ih]

/-- A test that no two places of a list pass picks out its one element. -/
theorem filter_eq_singleton {l : List α} {p : α → Prop} [DecidablePred p] {a : α} (member : a ∈ l)
    (passes : p a) (alone : l.Pairwise fun b c => ¬(p b ∧ p c)) :
    l.filter (fun b => p b) = [a] := by
  induction l with
  | nil => exact nomatch member
  | cons b l ih =>
    obtain ⟨first, alone⟩ := List.pairwise_cons.1 alone
    rcases List.mem_cons.1 member with rfl | member
    · have rest : l.filter (fun b => p b) = [] := by
        apply List.filter_eq_nil_iff.2
        intro c hc pc
        exact first c hc ⟨passes, of_decide_eq_true pc⟩
      rw [List.filter_cons, if_pos (decide_eq_true passes), rest]
    · have fails : ¬decide (p b) = true := by
        intro pb
        exact first a member ⟨of_decide_eq_true pb, passes⟩
      rw [List.filter_cons, if_neg fails, ih member alone]

theorem countP_le_one {l : List α} {p : α → Prop} [DecidablePred p]
    (alone : l.Pairwise fun b c => ¬(p b ∧ p c)) : l.countP (fun b => p b) ≤ 1 := by
  cases found : l.find? fun b => p b with
  | none =>
    have none := List.countP_eq_zero.2 fun a member => List.find?_eq_none.1 found a member
    rw [none]
    exact Nat.zero_le 1
  | some a =>
    have passes : p a := by simpa using List.find?_some found
    have one := filter_eq_singleton (List.mem_of_find?_eq_some found) passes alone
    rw [List.countP_eq_length_filter, one]
    exact Nat.le_refl 1

end CoinLedger
