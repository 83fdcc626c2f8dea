import Recast.Proofs.Spelling
/-!
# Grammar — descriptors by their form

What a descriptor looks like can be said without the type that it spells: a field descriptor is the letter of a primitive
or a class name between `L` and `;`, after any number of brackets, and a method descriptor is field descriptors in
parentheses and one more, or `V`, after them.  A text of that form spells a type, or a signature, and no other text does
(`Descriptor.fieldWord_iff`, `Descriptor.methodWord_iff`); so the reader takes a text exactly if it has the form.
-/
namespace Recast

namespace Descriptor

/-- **The form of a field descriptor**: the letter of a primitive, a class name between `L` and `;`, or either of them
after brackets. -/
inductive FieldWord : List Char → Prop
  | letter {p : Primitive} (hp : p ≠ .void) : FieldWord [p.letter]
  | named {n : List Char} (hne : n ≠ []) (hn : ';' ∉ n) : FieldWord ('L' :: (n ++ [';']))
  | array {w : List Char} (hw : FieldWord w) : FieldWord ('[' :: w)

/-- **The form of a method descriptor**: field descriptors in parentheses, and one more or `V` after them. -/
inductive MethodWord : List Char → Prop
  | intro {ws : List (List Char)} {r : List Char} (hws : ∀ w ∈ ws, FieldWord w) (hr : r = ['V'] ∨ FieldWord r) :
    MethodWord ('(' :: (ws.flatten ++ ')' :: r))

variable {t : Ty} {cs e w : List Char} {s : String}

theorem elementSpelling?_withDimension (t : Ty) (d : UInt32) :
    (t.withDimension d).elementSpelling? = t.elementSpelling? := by
  rcases t with p | ⟨n, as, _⟩ | v
  · cases p <;> rfl
  · cases as <;> rfl
  · rfl

theorem fieldWord_of_elementSpelling? (he : t.elementSpelling? = some e) : FieldWord e := by
  unfold Ty.elementSpelling? at he
  split at he
  · cases he
  · rename_i p d hp
    cases he
    exact .letter hp
  · rename_i n d
    split at he
    · rename_i hname
      cases he
      exact .named (fun hnil => hname.1 (String.toList_eq_nil_iff.1 hnil)) hname.2
    · cases he
  · cases he
  · cases he

/-- One bracket more is one dimension more. -/
theorem Spells.array (hw : Spells t w) : Spells (t.withDimension (t.dimension + 1)) ('[' :: w) := by
  obtain ⟨n, e, he, hdim, rfl⟩ := hw
  refine ⟨n + 1, e, (elementSpelling?_withDimension t _).trans he, ?_, rfl⟩
  rw [Ty.dimension_withDimension, hdim, UInt32.ofNat_add]
  rfl

/-- **What has the form spells a type**, and only that. -/
theorem fieldWord_iff : FieldWord w ↔ ∃ t, Spells t w := by
  constructor
  · intro hw
    induction hw with
    | @letter p hp =>
      refine ⟨.ofPrimitive p, 0, [p.letter], ?_, rfl, rfl⟩
      cases p with
      | void => exact absurd rfl hp
      | _ => rfl
    | @named n hne hn =>
      refine ⟨.ofClass (String.ofList n), 0, 'L' :: (n ++ [';']), ?_, rfl, rfl⟩
      have hproper : String.ofList n ≠ "" ∧ ';' ∉ (String.ofList n).toList := by
        rw [ne_eq, ← String.toList_eq_nil_iff, String.toList_ofList]
        exact ⟨hne, hn⟩
      change (if _ then _ else _) = _
      rw [if_pos hproper, String.toList_ofList]
    | array hw ih =>
      obtain ⟨t, ht⟩ := ih
      exact ⟨_, ht.array⟩
  · rintro ⟨t, n, e, he, -, rfl⟩
    induction n with
    | zero => exact fieldWord_of_elementSpelling? he
    | succ n ih => exact .array ih

theorem fieldWords_iff {ws : List (List Char)} : (∀ w ∈ ws, FieldWord w) ↔ ∃ ts, List.Forall₂ Spells ts ws := by
  induction ws with
  | nil => exact iff_of_true nofun ⟨[], .nil⟩
  | cons w ws ih =>
    rw [List.forall_mem_cons, ih, fieldWord_iff]
    constructor
    · rintro ⟨⟨t, ht⟩, ts, hts⟩
      exact ⟨t :: ts, .cons ht hts⟩
    · rintro ⟨_, _ | ⟨ht, hts⟩⟩
      exact ⟨⟨_, ht⟩, _, hts⟩

theorem resultWord_iff : w = ['V'] ∨ FieldWord w ↔ ∃ t, SpellsResult t w := by
  rw [fieldWord_iff]
  constructor
  · rintro (rfl | ⟨t, ht⟩)
    · exact ⟨_, .inl ⟨rfl, rfl⟩⟩
    · exact ⟨t, .inr ht⟩
  · rintro ⟨t, ⟨-, hw⟩ | ht⟩
    · exact .inl hw
    · exact .inr ⟨t, ht⟩

/-- **The reader takes what has the form**, and only that. -/
theorem methodWord_iff : MethodWord cs ↔ ∃ m, methodType cs = .ok m := by
  simp only [methodType_iff]
  constructor
  · rintro ⟨hws, hr⟩
    obtain ⟨ts, hts⟩ := fieldWords_iff.1 hws
    obtain ⟨t, ht⟩ := resultWord_iff.1 hr
    exact ⟨⟨ts, t⟩, _, _, hts, ht, rfl⟩
  · rintro ⟨m, ws, w, hws, hw, rfl⟩
    exact .intro (fieldWords_iff.2 ⟨_, hws⟩) (resultWord_iff.2 ⟨_, hw⟩)

end Descriptor

open Descriptor

theorem MethodType.exists_ofDescriptor_iff {s : String} :
    (∃ m, MethodType.ofDescriptor s = .ok m) ↔ MethodWord s.toList := by
  rw [methodWord_iff]
  exact exists_congr fun m => MethodType.ofDescriptor_ok_iff

end Recast
