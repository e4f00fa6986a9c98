import CoinLedger.Json.Reader
import CoinLedger.Proofs.Json.Tokens

/-!
Documents from the tokens of their written forms. The reader's stack stays the same under a whole
value, so what is read of a value does not depend on where it stands. Main statement: the compact
and the indented form of an object read back as the object.
-/

namespace CoinLedger.Json

def parse (r : Reading) (ts : List Token) : Option Reading := ts.foldlM Reading.step r

theorem parse_cons (r : Reading) (t : Token) (ts : List Token) :
    parse r (t :: ts) = (r.step t).bind fun r => parse r ts := List.foldlM_cons

/-- A value is read as such wherever a value may come. -/
def Parses (v : Json) : Prop :=
  ∀ above rest, parse (.value above) (tokens v ++ rest) = parse (.after v above) rest

/-- The first item of an array is read like any other. -/
theorem parse_itemOrEnd (v : Json) (above : List Frame) (rest : List Token) :
    parse (.itemOrEnd above) (tokens v ++ rest) =
      parse (.value (.item [] :: above)) (tokens v ++ rest) := by
  match v with
  | .null => rfl
  | .bool _ => rfl
  | .number _ => rfl
  | .string _ => rfl
  | .array [] => rfl
  | .array (_ :: _) => rfl
  | .object [] => rfl
  | .object ((_, _) :: _) => rfl

theorem parse_itemTokens {items : List Json} (h : ∀ v ∈ items, Parses v) (v : Json)
    (rev : List Json) (above : List Frame) (rest : List Token) :
    parse (.after v (.item rev :: above)) (itemTokens items ++ .endArray :: rest) =
      parse (.after (.array (rev.reverse ++ v :: items)) above) rest := by
  induction items generalizing v rev with
  | nil =>
    rw [itemTokens, List.nil_append, parse_cons]
    simp [Reading.step]
  | cons w items ih =>
    rw [itemTokens, List.cons_append, List.cons_append, List.append_assoc, parse_cons]
    simp only [Reading.step, Option.bind_some]
    rw [h w (by simp), ih (fun u hu => h u (by simp [hu]))]
    simp

theorem parses_array {items : List Json} (h : ∀ v ∈ items, Parses v) : Parses (.array items) := by
  intro above rest
  cases items with
  | nil => rfl
  | cons v items =>
    have others : ∀ w ∈ items, Parses w := fun w hw => h w (by simp [hw])
    rw [tokens]
    simp only [List.cons_append, List.append_assoc, List.nil_append]
    rw [parse_cons]
    simp only [Reading.step, Reading.begin, Option.bind_some]
    rw [parse_itemOrEnd, h v (by simp), parse_itemTokens others]
    rfl

theorem parse_memberTokens {members : List (List UInt8 × Json)} (h : ∀ m ∈ members, Parses m.2)
    (v : Json) (rev : List (List UInt8 × Json)) (key : List UInt8) (above : List Frame)
    (rest : List Token) :
    parse (.after v (.member rev key :: above)) (memberTokens members ++ .endObject :: rest) =
      parse (.after (.object (rev.reverse ++ (key, v) :: members)) above) rest := by
  induction members generalizing v rev key with
  | nil =>
    rw [memberTokens, List.nil_append, parse_cons]
    simp [Reading.step]
  | cons m members ih =>
    obtain ⟨k, w⟩ := m
    rw [memberTokens]
    simp only [List.cons_append, List.append_assoc]
    rw [parse_cons]
    simp only [Reading.step, Option.bind_some]
    rw [parse_cons]
    simp only [Reading.step, Option.bind_some]
    rw [parse_cons]
    simp only [Reading.step, Option.bind_some]
    rw [h (k, w) (by simp), ih (fun u hu => h u (by simp [hu]))]
    simp

theorem parses_object {members : List (List UInt8 × Json)} (h : ∀ m ∈ members, Parses m.2) :
    Parses (.object members) := by
  intro above rest
  match members with
  | [] => rfl
  | (k, v) :: members =>
    have others : ∀ m ∈ members, Parses m.2 := fun m hm => h m (by simp [hm])
    rw [tokens]
    simp only [List.cons_append, List.append_assoc, List.nil_append]
    rw [parse_cons]
    simp only [Reading.step, Reading.begin, Option.bind_some]
    rw [parse_cons]
    simp only [Reading.step, Option.bind_some]
    rw [parse_cons]
    simp only [Reading.step, Option.bind_some]
    rw [h (k, v) (by simp), parse_memberTokens others]
    rfl

theorem Built.parses {v : Json} (h : Built v) : Parses v := by
  induction h with
  | ofInt _ => exact fun _ _ => rfl
  | ofText _ => exact fun _ _ => rfl
  | array _ ih => exact parses_array ih
  | @ofFields fields _ ih =>
    apply parses_object
    intro m member
    obtain ⟨f, hf, rfl⟩ := List.mem_map.1 member
    exact ih f hf

theorem read?_spaced (s : Spacing) (level : Nat) {fields : List (String × Json)}
    (h : ∀ f ∈ fields, Built f.2) :
    read? (spaced s level (.ofFields fields)) = some (.ofFields fields) := by
  have run := (Built.ofFields h).parses [] []
  rw [List.append_nil] at run
  rw [read?, tokens?_spaced h, Option.bind_some]
  change (parse (.value []) _).bind Reading.finish = _
  rw [run]
  rfl

theorem read?_compact {fields : List (String × Json)} (h : ∀ f ∈ fields, Built f.2) :
    read? (compact (.ofFields fields)) = some (.ofFields fields) := by
  rw [← spaced_tight 0]
  exact read?_spaced .tight 0 h

theorem read?_pretty {fields : List (String × Json)} (h : ∀ f ∈ fields, Built f.2) :
    read? (pretty (.ofFields fields)) = some (.ofFields fields) := by
  rw [pretty, ← spaced_airy]
  exact read?_spaced .airy 0 h

end CoinLedger.Json
