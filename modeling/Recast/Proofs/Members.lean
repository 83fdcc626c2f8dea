import Recast.Syntax.Decode
/-!
# Members — what a decoder finds in what was written

A member is found behind members of other names, and it is found alone when no other has its name; so what a record
is read as is worked out member by member.  Beside the lookups stand the values without parts, lists and options, and
the steps that a value is read in, two for each level of its nesting.
-/
namespace Recast

/-! ## Lookups -/

namespace Json.Members

variable {α : Type} {ms : Members} {k k' : String} {j : Json} {absent : α} {d : Decoder α}

@[simp] theorem find?_nil (k : String) : find? [] k = some none := by
  simp only [find?, List.filter_nil]

@[simp] theorem find?_cons_of_ne (h : k' ≠ k) : find? ((k', j) :: ms) k = find? ms k := by
  have hb : (k' == k) = false := beq_eq_false_iff_ne.2 h
  simp only [find?, List.filter_cons, hb]
  rfl

/-- A name that no other member has leads to its member. -/
@[simp] theorem find?_cons_self (h : find? ms k = some none) : find? ((k, j) :: ms) k = some (some j) := by
  have hnil : ms.filter (·.1 == k) = [] := by
    unfold find? at h
    split at h
    · assumption
    · cases h
    · cases h
  simp only [find?, List.filter_cons, beq_self_eq_true, hnil, if_true]

@[simp] theorem required_cons_self (h : find? ms k = some none) : required ((k, j) :: ms) k d = d j := by
  rw [required, find?_cons_self h]

@[simp] theorem required_cons_of_ne (h : k' ≠ k) : required ((k', j) :: ms) k d = required ms k d := by
  rw [required, required, find?_cons_of_ne h]

@[simp] theorem nullable_nil : nullable [] k d = some none := by
  rw [nullable, find?_nil]

@[simp] theorem nullable_cons_self (h : find? ms k = some none) : nullable ((k, j) :: ms) k d = d.orNull j := by
  rw [nullable, find?_cons_self h]

@[simp] theorem nullable_cons_of_ne (h : k' ≠ k) : nullable ((k', j) :: ms) k d = nullable ms k d := by
  rw [nullable, nullable, find?_cons_of_ne h]

@[simp] theorem withDefault_nil : withDefault [] k absent d = some absent := by
  rw [withDefault, find?_nil]

@[simp] theorem withDefault_cons_self (h : find? ms k = some none) : withDefault ((k, j) :: ms) k absent d = d j := by
  rw [withDefault, find?_cons_self h]

@[simp] theorem withDefault_cons_of_ne (h : k' ≠ k) :
    withDefault ((k', j) :: ms) k absent d = withDefault ms k absent d := by
  rw [withDefault, withDefault, find?_cons_of_ne h]

end Json.Members

@[simp] theorem Json.members?_object (ms : Json.Members) : (Json.object ms).members? = some ms := rfl

/-- A decoder that looks at the tag of an object first goes on with the word that stands there. -/
theorem Json.tagged_bind {β : Type} {ms : Json.Members} {k w : String} (h : ms.find? k = some none)
    (f : Json.Members → String → Option β) :
    ((Json.object ((k, .string w) :: ms)).members? >>= fun ms => ms.required k .string >>= f ms) =
      f ((k, .string w) :: ms) w := by
  simp only [Json.members?_object, Option.bind_eq_bind, Option.bind_some, Json.Members.required_cons_self h]
  rfl

/-! ## Values without parts -/

namespace Decoder

variable {α β : Type}

@[simp] theorem string_string (s : String) : string (.string s) = some s := rfl

@[simp] theorem bool_bool (b : Bool) : bool (.bool b) = some b := rfl

@[simp] theorem char_singleton (c : Char) : char (.string (String.singleton c)) = some c := by
  simp [char]

@[simp] theorem word_string (table : String → Option α) (w : String) : word table (.string w) = table w := rfl

theorem integer_of_le {low high n : Int} (hl : low ≤ n) (hh : n ≤ high) : integer low high (.integer n) = some n := by
  simp only [integer, Json.integer, hl, hh, and_self, if_true]

@[simp] theorem uint16_nat (v : UInt16) : uint16 (.nat v.toNat) = some v := by
  have hv : v.toNat < 0x10000 := v.toNat_lt
  rw [uint16, Json.nat, integer_of_le (by omega) (by omega)]
  simp

@[simp] theorem uint32_nat (v : UInt32) : uint32 (.nat v.toNat) = some v := by
  have hv : v.toNat < 0x100000000 := v.toNat_lt
  rw [uint32, Json.nat, integer_of_le (by omega) (by omega)]
  simp

@[simp] theorem int32_integer (v : Int32) : int32 (.integer v.toInt) = some v := by
  have hl : -0x80000000 ≤ v.toInt := v.le_toInt
  have hh : v.toInt < 0x80000000 := v.toInt_lt
  rw [int32, integer_of_le hl (by omega)]
  simp

@[simp] theorem int64_integer (v : Int64) : int64 (.integer v.toInt) = some v := by
  have hl : -0x8000000000000000 ≤ v.toInt := v.le_toInt
  have hh : v.toInt < 0x8000000000000000 := v.toInt_lt
  rw [int64, integer_of_le hl (by omega)]
  simp

theorem single_single {v : Float32} (h : v.isFinite = true) : single (.single v) = some v := by
  simp only [Json.single, h, if_true, single]

theorem double_double {v : Float} (h : v.isFinite = true) : double (.double v) = some v := by
  simp only [Json.double, h, if_true, double, Number.toFloat]

/-! ## Lists and options -/

@[simp] theorem list_nil (d : Decoder α) : list d (.array []) = some [] := by
  simp [list]

theorem list_cons_of {d : Decoder α} {j : Json} {js : List Json} {x : α} {xs : List α} (hx : d j = some x)
    (hxs : list d (.array js) = some xs) : list d (.array (j :: js)) = some (x :: xs) := by
  have hjs : js.mapM d = some xs := hxs
  simp only [list, List.mapM_cons, hx, hjs]
  rfl

/-- What is read back item by item is read back as a list. -/
theorem list_ofList {d : Decoder α} {f : α → Json} :
    ∀ {xs : List α}, (∀ x ∈ xs, d (f x) = some x) → list d (.ofList f xs) = some xs
  | [], _ => list_nil d
  | x :: _, h => list_cons_of (h x List.mem_cons_self) (list_ofList fun y hy => h y (List.mem_cons_of_mem x hy))

@[simp] theorem orNull_null (d : Decoder α) : d.orNull .null = some none := rfl

theorem orNull_of_ne_null {d : Decoder α} {j : Json} (h : j ≠ .null) : d.orNull j = (d j).map some := by
  cases j with
  | null => exact absurd rfl h
  | _ => rfl

@[simp] theorem orNull_array (d : Decoder α) (js : List Json) : d.orNull (.array js) = (d (.array js)).map some := rfl

/-- What is read back and never written as null is read back as an option. -/
theorem orNull_ofOption {d : Decoder α} {f : α → Json} {o : Option α} (hnull : ∀ x, f x ≠ .null)
    (h : ∀ x ∈ o, d (f x) = some x) : d.orNull (.ofOption f o) = some o := by
  cases o with
  | none => rfl
  | some x => rw [Json.ofOption, orNull_of_ne_null (hnull x), h x rfl, Option.map_some]

end Decoder

/-! ## Steps -/

/-- **The value is read in `n` steps.** -/
def Json.Within (j : Json) (n : Nat) : Prop := 2 * j.depth ≤ n

/-- All members are read in `n` steps. -/
def Json.Members.Within : Json.Members → Nat → Prop
  | [], _ => True
  | (_, j) :: ms, n => j.Within n ∧ Within ms n

namespace Json

variable {j : Json} {js : List Json} {ms : Members} {n : Nat}

theorem Members.within_iff : ∀ ms : Members, ms.Within n ↔ 2 * depthOfMembers ms ≤ n
  | [] => by simp [Members.Within, depthOfMembers]
  | (_, j) :: ms => by
    rw [Members.Within, Json.Within, Members.within_iff ms, depthOfMembers]
    omega

/-- An object takes a step and leaves its members steps enough. -/
theorem Within.object (h : (Json.object ms).Within n) : ∃ m, n = m + 1 ∧ ms.Within m := by
  rw [Json.Within, Json.depth] at h
  exact ⟨n - 1, by omega, (Members.within_iff ms).2 (by omega)⟩

/-- Where the members of an object are taken in a step of their own there are steps enough as well. -/
theorem Within.record (h : (Json.object ms).Within n) : ∃ m, n = m + 2 ∧ ms.Within m := by
  rw [Json.Within, Json.depth] at h
  exact ⟨n - 2, by omega, (Members.within_iff ms).2 (by omega)⟩

theorem Within.head (h : (Json.array (j :: js)).Within n) : j.Within n := by
  rw [Json.Within, Json.depth, depthOfItems] at h
  rw [Json.Within]
  omega

theorem Within.tail (h : (Json.array (j :: js)).Within n) : (Json.array js).Within n := by
  rw [Json.Within, Json.depth, depthOfItems] at h
  rw [Json.Within, Json.depth]
  omega

end Json

end Recast
