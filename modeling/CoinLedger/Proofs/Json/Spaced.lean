import CoinLedger.Json.Printer
import CoinLedger.Json.Token

/-!
The written forms of a document as one, with white space as its parameter. Main statement: the compact
and the indented form are two cases of it.
-/

namespace CoinLedger.Json

/-- The white space in front of an item, a member or a closing bracket at a level, and after a colon. -/
structure Spacing where
  line : Nat → List UInt8
  gap : List UInt8
  line_blank : ∀ level, ∀ b ∈ line level, isSpace b = true
  gap_blank : ∀ b ∈ gap, isSpace b = true

namespace Spacing

def tight : Spacing := ⟨fun _ => [], [], by simp, by simp⟩

@[simp] theorem line_tight (level : Nat) : tight.line level = [] := rfl

@[simp] theorem gap_tight : tight.gap = [] := rfl

theorem isSpace_of_mem_newline {level : Nat} {b : UInt8} (member : b ∈ newline level) :
    isSpace b = true := by
  rcases List.mem_cons.1 member with rfl | member
  · rfl
  · rw [List.eq_of_mem_replicate member]
    rfl

def airy : Spacing where
  line := newline
  gap := [0x20]
  line_blank _ _ member := isSpace_of_mem_newline member
  gap_blank b member := by
    rw [List.mem_singleton.1 member]
    rfl

@[simp] theorem line_airy (level : Nat) : airy.line level = newline level := rfl

@[simp] theorem gap_airy : airy.gap = [0x20] := rfl

end Spacing

mutual

def spaced (s : Spacing) (level : Nat) : Json → List UInt8
  | .array [] => [0x5b, 0x5d]
  | .array (v :: items) =>
    0x5b :: s.line (level + 1) ++ spaced s (level + 1) v ++ spacedItems s (level + 1) items ++
      s.line level ++ [0x5d]
  | .object [] => [0x7b, 0x7d]
  | .object ((k, v) :: members) =>
    0x7b :: s.line (level + 1) ++ quote k ++ 0x3a :: s.gap ++ spaced s (level + 1) v ++
      spacedMembers s (level + 1) members ++ s.line level ++ [0x7d]
  | v => scalarBytes v

def spacedItems (s : Spacing) (level : Nat) : List Json → List UInt8
  | [] => []
  | v :: items => 0x2c :: s.line level ++ spaced s level v ++ spacedItems s level items

def spacedMembers (s : Spacing) (level : Nat) : List (List UInt8 × Json) → List UInt8
  | [] => []
  | (k, v) :: members =>
    0x2c :: s.line level ++ quote k ++ 0x3a :: s.gap ++ spaced s level v ++
      spacedMembers s level members

end

mutual

theorem spaced_tight (level : Nat) : ∀ v, spaced .tight level v = compact v
  | .array [] => rfl
  | .array (v :: items) => by
    simp [spaced, compact, spaced_tight _ v, spacedItems_tight _ items]
  | .object [] => rfl
  | .object ((_, v) :: members) => by
    simp [spaced, compact, spaced_tight _ v, spacedMembers_tight _ members]
  | .null => rfl
  | .bool _ => rfl
  | .number _ => rfl
  | .string _ => rfl

theorem spacedItems_tight (level : Nat) : ∀ items, spacedItems .tight level items = compactItems items
  | [] => rfl
  | v :: items => by
    simp [spacedItems, compactItems, spaced_tight level v, spacedItems_tight level items]

theorem spacedMembers_tight (level : Nat) :
    ∀ members, spacedMembers .tight level members = compactMembers members
  | [] => rfl
  | (_, v) :: members => by
    simp [spacedMembers, compactMembers, spaced_tight level v, spacedMembers_tight level members]

end

mutual

theorem spaced_airy (level : Nat) : ∀ v, spaced .airy level v = indented level v
  | .array [] => rfl
  | .array (v :: items) => by
    simp [spaced, indented, spaced_airy _ v, spacedItems_airy _ items]
  | .object [] => rfl
  | .object ((_, v) :: members) => by
    simp [spaced, indented, spaced_airy _ v, spacedMembers_airy _ members]
  | .null => rfl
  | .bool _ => rfl
  | .number _ => rfl
  | .string _ => rfl

theorem spacedItems_airy (level : Nat) :
    ∀ items, spacedItems .airy level items = indentedItems level items
  | [] => rfl
  | v :: items => by
    simp [spacedItems, indentedItems, spaced_airy level v, spacedItems_airy level items]

theorem spacedMembers_airy (level : Nat) :
    ∀ members, spacedMembers .airy level members = indentedMembers level members
  | [] => rfl
  | (_, v) :: members => by
    simp [spacedMembers, indentedMembers, spaced_airy level v, spacedMembers_airy level members]

end

end CoinLedger.Json
