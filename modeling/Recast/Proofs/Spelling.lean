import Mathlib.Data.List.Forall2
import Recast.Descriptor
/-!
# Spelling — the descriptor of an erased type

An erased type is a primitive other than `void` or a raw class whose name is not empty and holds no `;`, or an array of
one.  Its descriptor is one bracket per dimension and the letter, or the name between `L` and `;`
(`Ty.descriptor?`).  A method's is its parameters' in parentheses and its result's, or `V` (`MethodType.descriptor?`).

A reader that knows no more than this language is described by words: `Spells t w` says that `w` spells `t` with any
number of brackets, of which the dimension of `t` keeps what fits into 32 bits.  Both readers read exactly the words
(`Descriptor.fieldType_iff`, `Descriptor.methodType_iff`).  Where the dimensions fit, a word is the descriptor itself.
-/
namespace Recast

/-! ## Descriptors -/

/-- What stands after the brackets; types that are not erased have no descriptor. -/
def Ty.elementSpelling? : Ty → Option (List Char)
  | .primitive .void _ => none
  | .primitive p _ => some [p.letter]
  | .object ⟨n, none, _⟩ => if n ≠ "" ∧ ';' ∉ n.toList then some ('L' :: (n.toList ++ [';'])) else none
  | .object ⟨_, some _, _⟩ => none
  | .var _ => none

def Ty.spelling? (t : Ty) : Option (List Char) :=
  t.elementSpelling?.map fun e => List.replicate t.dimension.toNat '[' ++ e

/-- The descriptors of a list of types, one after the other. -/
def spellings? : List Ty → Option (List Char)
  | [] => some []
  | t :: ts => do
    let w ← t.spelling?
    let ws ← spellings? ts
    return w ++ ws

/-- `V` for a method without a value. -/
def Ty.resultSpelling? (t : Ty) : Option (List Char) :=
  if t = .ofPrimitive .void then some ['V'] else t.spelling?

def MethodType.spelling? (m : MethodType) : Option (List Char) := do
  let ws ← spellings? m.parameters
  let w ← m.returns.resultSpelling?
  return '(' :: (ws ++ ')' :: w)

/-- **The field descriptor of an erased type.** -/
def Ty.descriptor? (t : Ty) : Option String := t.spelling?.map String.ofList

/-- **The method descriptor of an erased signature.** -/
def MethodType.descriptor? (m : MethodType) : Option String := m.spelling?.map String.ofList

namespace Descriptor

/-! ## Words -/

/-- **A word for a type**: brackets, as many as the dimension keeps, and what stands after them. -/
def Spells (t : Ty) (w : List Char) : Prop :=
  ∃ n e, t.elementSpelling? = some e ∧ t.dimension = UInt32.ofNat n ∧ w = List.replicate n '[' ++ e

/-- A word for the result of a method. -/
def SpellsResult (t : Ty) (w : List Char) : Prop := t = .ofPrimitive .void ∧ w = ['V'] ∨ Spells t w

/-- Number of brackets in front. -/
def brackets (w : List Char) : Nat := (w.takeWhile (· == '[')).length

/-- **The components of a text**: the text as a whole, or the parameters and the result of a method. -/
inductive Component (text : List Char) : List Char → Prop
  | whole : Component text text
  | parameter {ts : List Ty} {ws : List (List Char)} {w r : List Char} (hws : List.Forall₂ Spells ts ws)
    (htext : text = '(' :: (ws.flatten ++ ')' :: r)) (hw : w ∈ ws) : Component text w
  | result {ts : List Ty} {ws : List (List Char)} {r : List Char} (hws : List.Forall₂ Spells ts ws)
    (htext : text = '(' :: (ws.flatten ++ ')' :: r)) : Component text r

/-- **No component has more brackets than a type has dimensions.** -/
def DimensionsFit (text : String) : Prop := ∀ w, Component text.toList w → brackets w < UInt32.size

variable {t : Ty} {ts : List Ty} {cs e w r : List Char} {d : UInt32} {n : Nat}

/-! ## Reading one component -/

/-- A class name ends at the first `;`. -/
theorem className_iff {name : List Char} : className cs = some (name, r) ↔ ';' ∉ name ∧ cs = name ++ ';' :: r := by
  induction cs generalizing name with
  | nil => simp [className]
  | cons c cs ih =>
    unfold className
    by_cases hc : c = ';'
    · subst hc
      rw [if_pos rfl]
      constructor
      · intro h
        cases h
        exact ⟨List.not_mem_nil, rfl⟩
      · rintro ⟨hname, htext⟩
        cases name with
        | nil =>
          cases htext
          rfl
        | cons x name =>
          cases htext
          exact absurd List.mem_cons_self hname
    · rw [if_neg hc, Option.map_eq_some_iff]
      constructor
      · rintro ⟨⟨name', r'⟩, hrest, heq⟩
        cases heq
        obtain ⟨hname, rfl⟩ := ih.1 hrest
        exact ⟨fun hmem => (List.mem_cons.1 hmem).elim (fun h => hc h.symm) hname, rfl⟩
      · rintro ⟨hname, htext⟩
        cases name with
        | nil =>
          cases htext
          exact absurd rfl hc
        | cons x name =>
          cases htext
          exact ⟨(name, r), ih.2 ⟨fun hmem => hname (List.mem_cons_of_mem _ hmem), rfl⟩, rfl⟩

/-- Under brackets already read, the element type gets their number as its dimension. -/
theorem component_element (he : t.elementSpelling? = some e) (r : List Char) :
    component t.dimension (e ++ r) = .ok (t, r) := by
  unfold Ty.elementSpelling? at he
  split at he
  · cases he
  · rename_i p k hp
    cases he
    cases p with
    | void => exact absurd rfl hp
    | _ => rfl
  · rename_i name k
    split at he
    · rename_i hname
      cases he
      have hcut : className (name.toList ++ [';'] ++ r) = some (name.toList, r) :=
        className_iff.2 ⟨hname.2, by simp⟩
      cases hlist : name.toList with
      | nil => exact absurd (String.toList_eq_nil_iff.1 hlist) hname.1
      | cons c cs =>
        rw [hlist] at hcut
        change component k ('L' :: (c :: cs ++ [';'] ++ r)) = _
        rw [component, hcut]
        simp only [← hlist, String.ofList_toList]
    · cases he
  · cases he
  · cases he

theorem component_brackets (d : UInt32) (n : Nat) (cs : List Char) :
    component d (List.replicate n '[' ++ cs) = component (d + UInt32.ofNat n) cs := by
  induction n generalizing d with
  | zero => simp
  | succ n ih =>
    rw [List.replicate_succ, List.cons_append, component, ih]
    congr 1
    rw [UInt32.ofNat_add, UInt32.add_assoc, UInt32.add_comm 1]
    rfl

/-- What a component is read from. -/
theorem exists_of_component (h : component d cs = .ok (t, r)) :
    ∃ n e, t.elementSpelling? = some e ∧ t.dimension = d + UInt32.ofNat n ∧ cs = List.replicate n '[' ++ (e ++ r) := by
  fun_induction component d cs with
  | case1 d => cases h
  | case2 d cs ih =>
    obtain ⟨n, e, he, hdim, rfl⟩ := ih h
    refine ⟨n + 1, e, he, ?_, rfl⟩
    rw [hdim, UInt32.ofNat_add, UInt32.add_assoc, UInt32.add_comm 1]
    rfl
  | case3 d cs c name rest hcut =>
    cases h
    obtain ⟨hname, rfl⟩ := className_iff.1 hcut
    refine ⟨0, 'L' :: (c :: name ++ [';']), ?_, by simp [Ty.dimension], by simp⟩
    have hproper : String.ofList (c :: name) ≠ "" ∧ ';' ∉ (String.ofList (c :: name)).toList := by
      rw [String.toList_ofList, ne_eq, ← String.toList_eq_nil_iff, String.toList_ofList]
      exact ⟨List.cons_ne_nil _ _, hname⟩
    rw [Ty.elementSpelling?, if_pos hproper, String.toList_ofList]
  | case4 d cs hcut => cases h
  | case5 d c cs hb hl hvoid => cases h
  | case6 d c cs hb hl p hp hletter =>
    cases h
    obtain rfl := Primitive.letter_of_ofLetter? hletter
    refine ⟨0, [p.letter], ?_, by simp [Ty.dimension], rfl⟩
    cases p with
    | void => exact absurd rfl hp
    | _ => rfl
  | case7 d c cs hb hl hnone => cases h

/-- **A component is read exactly off a word.** -/
theorem component_iff : component 0 cs = .ok (t, r) ↔ ∃ w, Spells t w ∧ cs = w ++ r := by
  constructor
  · intro h
    obtain ⟨n, e, he, hdim, rfl⟩ := exists_of_component h
    rw [UInt32.zero_add] at hdim
    exact ⟨_, ⟨n, e, he, hdim, rfl⟩, (List.append_assoc ..).symm⟩
  · rintro ⟨w, ⟨n, e, he, hdim, rfl⟩, rfl⟩
    rw [List.append_assoc, component_brackets, UInt32.zero_add, ← hdim]
    exact component_element he r

theorem fieldType_iff : fieldType cs = .ok t ↔ Spells t cs := by
  unfold fieldType
  constructor
  · intro h
    split at h
    · rename_i hc
      cases h
      obtain ⟨w, hw, rfl⟩ := component_iff.1 hc
      rwa [List.append_nil]
    · cases h
    · cases h
  · intro hw
    rw [component_iff.2 ⟨cs, hw, (List.append_nil cs).symm⟩]

/-! ## Reading a signature -/

/-- No word begins with the parenthesis that ends the parameters. -/
theorem component_close (r : List Char) : component 0 (')' :: r) = .error .malformed := rfl

/-- **Parameters are read exactly off words**, up to the parenthesis after them. -/
theorem parameters_iff : parameters cs = .ok (ts, r) ↔ ∃ ws, List.Forall₂ Spells ts ws ∧ cs = ws.flatten ++ ')' :: r := by
  constructor
  · intro h
    fun_induction parameters cs generalizing ts r with
    | case1 rest =>
      cases h
      exact ⟨[], .nil, rfl⟩
    | case2 cs hclose t rest hc ts' rest' hrest ih =>
      cases h
      obtain ⟨w, hw, rfl⟩ := component_iff.1 hc
      obtain ⟨ws, hws, rfl⟩ := ih hrest
      exact ⟨w :: ws, .cons hw hws, by rw [List.flatten_cons, List.append_assoc]⟩
    | case3 cs hclose t rest hc f hrest ih => cases h
    | case4 cs hclose f hc => cases h
  · rintro ⟨ws, hws, rfl⟩
    induction hws with
    | nil => rw [List.flatten_nil, List.nil_append, parameters]
    | @cons t w ts ws hw hws ih =>
      have hc : component 0 ((w :: ws).flatten ++ ')' :: r) = .ok (t, ws.flatten ++ ')' :: r) :=
        component_iff.2 ⟨w, hw, by rw [List.flatten_cons, List.append_assoc]⟩
      unfold parameters
      split
      · rename_i rest htext
        rw [htext, component_close] at hc
        cases hc
      · rw [hc]
        simp only [ih]

theorem methodType_iff {m : MethodType} : methodType cs = .ok m ↔
    ∃ ws w, List.Forall₂ Spells m.parameters ws ∧ SpellsResult m.returns w ∧ cs = '(' :: (ws.flatten ++ ')' :: w) := by
  constructor
  · intro h
    unfold methodType at h
    split at h
    · rename_i cs
      split at h
      · rename_i ts hps
        cases h
        obtain ⟨ws, hws, rfl⟩ := parameters_iff.1 hps
        exact ⟨ws, ['V'], hws, .inl ⟨rfl, rfl⟩, rfl⟩
      · rename_i ts rest hvoid hps
        obtain ⟨ws, hws, rfl⟩ := parameters_iff.1 hps
        cases hf : fieldType rest with
        | error f =>
          rw [hf] at h
          cases h
        | ok t =>
          rw [hf] at h
          cases h
          exact ⟨ws, rest, hws, .inr (fieldType_iff.1 hf), rfl⟩
      · cases h
    · cases h
  · rintro ⟨ws, w, hws, hresult, rfl⟩
    have hps : parameters (ws.flatten ++ ')' :: w) = .ok (m.parameters, w) := parameters_iff.2 ⟨ws, hws, rfl⟩
    unfold methodType
    simp only [hps]
    obtain ⟨ps, t⟩ := m
    rcases hresult with ⟨rfl, rfl⟩ | hw
    · rfl
    · have hf : fieldType w = .ok t := fieldType_iff.2 hw
      split
      · rename_i heq
        cases heq
        cases hf
      · rename_i heq
        cases heq
        rw [hf]
        rfl
      · rename_i heq
        cases heq

/-! ## Words and descriptors -/

theorem brackets_replicate_append (n : Nat) (he : brackets e = 0) : brackets (List.replicate n '[' ++ e) = n := by
  unfold brackets at he ⊢
  rw [List.takeWhile_append_of_pos fun c hc => by rw [List.eq_of_mem_replicate hc]; rfl, List.length_append, he,
    List.length_replicate, Nat.add_zero]

theorem brackets_elementSpelling? (he : t.elementSpelling? = some e) : brackets e = 0 := by
  unfold Ty.elementSpelling? at he
  split at he
  · cases he
  · rename_i p k hp
    cases he
    cases p <;> rfl
  · split at he
    · cases he
      rfl
    · cases he
  · cases he
  · cases he

theorem spells_of_spelling? (h : t.spelling? = some w) : Spells t w := by
  obtain ⟨e, he, rfl⟩ := Option.map_eq_some_iff.1 h
  exact ⟨t.dimension.toNat, e, he, UInt32.ofNat_toNat.symm, rfl⟩

/-- **Where the brackets fit into the dimension, a word is the descriptor.** -/
theorem Spells.spelling? (hw : Spells t w) (hfit : brackets w < UInt32.size) : t.spelling? = some w := by
  obtain ⟨n, e, he, hdim, rfl⟩ := hw
  rw [brackets_replicate_append n (brackets_elementSpelling? he)] at hfit
  unfold Ty.spelling?
  rw [he, hdim, UInt32.toNat_ofNat_of_lt' hfit]
  rfl

theorem spells_of_spellings? : ∀ {ts : List Ty} {w : List Char}, spellings? ts = some w →
    ∃ ws, List.Forall₂ Spells ts ws ∧ w = ws.flatten
  | [], w, h => by
    cases h
    exact ⟨[], .nil, rfl⟩
  | t :: ts, w, h => by
    unfold spellings? at h
    obtain ⟨w', hw', h⟩ := Option.bind_eq_some_iff.1 h
    obtain ⟨rest, hrest, h⟩ := Option.bind_eq_some_iff.1 h
    obtain ⟨ws, hws, rfl⟩ := spells_of_spellings? hrest
    cases h
    exact ⟨w' :: ws, .cons (spells_of_spelling? hw') hws, rfl⟩

theorem spellings?_of_spells {ws : List (List Char)} (hws : List.Forall₂ Spells ts ws)
    (hfit : ∀ w ∈ ws, brackets w < UInt32.size) : spellings? ts = some ws.flatten := by
  induction hws with
  | nil => rfl
  | cons hw hws ih =>
    obtain ⟨hfirst, hrest⟩ := List.forall_mem_cons.1 hfit
    rw [spellings?, hw.spelling? hfirst, ih hrest]
    rfl

theorem spellsResult_of_resultSpelling? (h : t.resultSpelling? = some w) : SpellsResult t w := by
  unfold Ty.resultSpelling? at h
  split at h
  · cases h
    exact .inl ⟨by assumption, rfl⟩
  · exact .inr (spells_of_spelling? h)

theorem SpellsResult.resultSpelling? (hw : SpellsResult t w) (hfit : brackets w < UInt32.size) :
    t.resultSpelling? = some w := by
  unfold Ty.resultSpelling?
  rcases hw with ⟨rfl, rfl⟩ | hw
  · exact if_pos rfl
  · rw [if_neg, hw.spelling? hfit]
    rintro rfl
    obtain ⟨n, e, he, -⟩ := hw
    cases he

end Descriptor

open Descriptor

variable {s : String} {t : Ty} {m : MethodType}

/-- The text of a field descriptor is a word for its type. -/
theorem Ty.ofDescriptor_ok_iff : Ty.ofDescriptor s = .ok t ↔ Spells t s.toList := by
  unfold ofDescriptor
  rw [← fieldType_iff]
  cases fieldType s.toList <;> simp [Except.mapError]

theorem MethodType.ofDescriptor_ok_iff : MethodType.ofDescriptor s = .ok m ↔ methodType s.toList = .ok m := by
  unfold ofDescriptor
  cases methodType s.toList <;> simp [Except.mapError]

theorem Ty.ofDescriptor_iff (hs : DimensionsFit s) : Ty.ofDescriptor s = .ok t ↔ t.descriptor? = some s := by
  rw [Ty.ofDescriptor_ok_iff]
  unfold descriptor?
  rw [Option.map_eq_some_iff]
  constructor
  · intro hw
    exact ⟨s.toList, hw.spelling? (hs _ .whole), String.ofList_toList⟩
  · rintro ⟨w, hw, rfl⟩
    rw [String.toList_ofList]
    exact spells_of_spelling? hw

theorem MethodType.ofDescriptor_iff (hs : DimensionsFit s) :
    MethodType.ofDescriptor s = .ok m ↔ m.descriptor? = some s := by
  rw [MethodType.ofDescriptor_ok_iff, methodType_iff]
  unfold descriptor? spelling?
  constructor
  · rintro ⟨ws, w, hws, hw, htext⟩
    have hparameters := spellings?_of_spells hws fun w hw => hs w (.parameter hws htext hw)
    have hresult := hw.resultSpelling? (hs w (.result hws htext))
    rw [hparameters, hresult, ← String.ofList_toList (s := s), htext]
    rfl
  · intro h
    obtain ⟨x, hx, rfl⟩ := Option.map_eq_some_iff.1 h
    obtain ⟨v, hv, hx⟩ := Option.bind_eq_some_iff.1 hx
    obtain ⟨w, hw, hx⟩ := Option.bind_eq_some_iff.1 hx
    obtain ⟨ws, hws, rfl⟩ := spells_of_spellings? hv
    cases hx
    exact ⟨ws, w, hws, spellsResult_of_resultSpelling? hw, String.toList_ofList⟩

/-- A signature put together from texts of components has as many parameters as there are texts. -/
theorem MethodType.exists_ofDescriptor {ds : List String} {r : String}
    (hds : ∀ d ∈ ds, ∃ t, Ty.ofDescriptor d = .ok t) (hr : r = "V" ∨ ∃ t, Ty.ofDescriptor r = .ok t) :
    ∃ m, MethodType.ofDescriptor ("(" ++ String.join ds ++ ")" ++ r) = .ok m ∧ m.arity = ds.length := by
  obtain ⟨ts, hts⟩ : ∃ ts, List.Forall₂ Spells ts (ds.map String.toList) := by
    induction ds with
    | nil => exact ⟨[], .nil⟩
    | cons d ds ih =>
      obtain ⟨⟨t, ht⟩, hrest⟩ := List.forall_mem_cons.1 hds
      obtain ⟨ts, hts⟩ := ih hrest
      exact ⟨t :: ts, .cons (Ty.ofDescriptor_ok_iff.1 ht) hts⟩
  obtain ⟨t, ht⟩ : ∃ t, SpellsResult t r.toList := by
    rcases hr with rfl | ⟨t, ht⟩
    · exact ⟨_, .inl ⟨rfl, rfl⟩⟩
    · exact ⟨t, .inr (Ty.ofDescriptor_ok_iff.1 ht)⟩
  refine ⟨⟨ts, t⟩, ofDescriptor_ok_iff.2 (methodType_iff.2 ⟨_, _, hts, ht, ?_⟩), ?_⟩
  · simp [String.toList_join, List.flatMap_def]
  · rw [arity, hts.length_eq, List.length_map]

/-- Every answer is a type or one of the faults, with the text as it was given. -/
theorem Ty.exists_ofDescriptor_error (hs : ∀ t, Ty.ofDescriptor s ≠ .ok t) :
    ∃ fault, Ty.ofDescriptor s = .error ⟨fault, s⟩ := by
  unfold ofDescriptor at hs ⊢
  cases hf : fieldType s.toList with
  | ok t => exact absurd (by rw [hf]; rfl) (hs t)
  | error fault => exact ⟨fault, rfl⟩

theorem MethodType.exists_ofDescriptor_error (hs : ∀ m, MethodType.ofDescriptor s ≠ .ok m) :
    ∃ fault, MethodType.ofDescriptor s = .error ⟨fault, s⟩ := by
  unfold ofDescriptor at hs ⊢
  cases hf : methodType s.toList with
  | ok m => exact absurd (by rw [hf]; rfl) (hs m)
  | error fault => exact ⟨fault, rfl⟩

namespace Descriptor

/-- A component is no longer than the text. -/
theorem Component.length_le {text w : List Char} (hw : Component text w) : w.length ≤ text.length := by
  cases hw with
  | whole => exact Nat.le_refl _
  | parameter hws htext hw =>
    subst htext
    have hle := (List.sublist_flatten_of_mem hw).length_le
    simp only [List.length_cons, List.length_append]
    omega
  | result hws htext =>
    subst htext
    simp only [List.length_cons, List.length_append]
    omega

/-- In a text shorter than the range of dimensions, all dimensions fit. -/
theorem dimensionsFit_of_length (h : s.length < UInt32.size) : DimensionsFit s := by
  intro w hw
  have hle : brackets w ≤ w.length := (List.takeWhile_prefix _).length_le
  have hlen := hw.length_le
  rw [String.length_toList] at hlen
  omega

/-- **Descriptors are read exactly.**  Of the texts whose dimensions fit, the reader of field descriptors takes those
that are the descriptor of an erased type, and gives that type; the reader of method descriptors does the same with
erased signatures, and the arity is the number of the components between the parentheses.  Every other text is a fault
of either reader, under the text as it was given; and no two texts are read as the same. -/
theorem descriptors_read_exactly (s : String) (hs : DimensionsFit s) :
    (∀ t, Ty.ofDescriptor s = .ok t ↔ t.descriptor? = some s) ∧
    (∀ m, MethodType.ofDescriptor s = .ok m ↔ m.descriptor? = some s) ∧
    ((∀ t : Ty, t.descriptor? ≠ some s) → ∃ fault, Ty.ofDescriptor s = .error ⟨fault, s⟩) ∧
    ((∀ m : MethodType, m.descriptor? ≠ some s) → ∃ fault, MethodType.ofDescriptor s = .error ⟨fault, s⟩) ∧
    (∀ s', DimensionsFit s' →
      (∀ t, Ty.ofDescriptor s = .ok t → Ty.ofDescriptor s' = .ok t → s' = s) ∧
      ∀ m, MethodType.ofDescriptor s = .ok m → MethodType.ofDescriptor s' = .ok m → s' = s) ∧
    ∀ ds r, (∀ d ∈ ds, ∃ t, Ty.ofDescriptor d = .ok t) → (r = "V" ∨ ∃ t, Ty.ofDescriptor r = .ok t) →
      s = "(" ++ String.join ds ++ ")" ++ r → ∃ m, MethodType.ofDescriptor s = .ok m ∧ m.arity = ds.length := by
  refine ⟨fun t => Ty.ofDescriptor_iff hs, fun m => MethodType.ofDescriptor_iff hs, fun hnone => ?_, fun hnone => ?_,
    fun s' hs' => ⟨fun t h h' => ?_, fun m h h' => ?_⟩, fun ds r hds hr htext => ?_⟩
  · exact Ty.exists_ofDescriptor_error fun t h => hnone t ((Ty.ofDescriptor_iff hs).1 h)
  · exact MethodType.exists_ofDescriptor_error fun m h => hnone m ((MethodType.ofDescriptor_iff hs).1 h)
  · rw [Ty.ofDescriptor_iff hs] at h
    rw [Ty.ofDescriptor_iff hs', h] at h'
    injection h' with h'
    exact h'.symm
  · rw [MethodType.ofDescriptor_iff hs] at h
    rw [MethodType.ofDescriptor_iff hs', h] at h'
    injection h' with h'
    exact h'.symm
  · rw [htext]
    exact MethodType.exists_ofDescriptor hds hr

/-- The dimensions are told from a class name that looks like the end of the parameters. -/
theorem descriptors_read_exactly_bracketed :
    DimensionsFit "([[La)[;I)V" ∧
    MethodType.ofDescriptor "([[La)[;I)V" = .ok ⟨[.object ⟨"a)[", none, 2⟩, .ofPrimitive .int], .ofPrimitive .void⟩ ∧
    ∃ m, MethodType.ofDescriptor "([[La)[;I)V" = .ok m ∧ m.arity = ["[[La)[;", "I"].length := by
  have hfit : DimensionsFit "([[La)[;I)V" := dimensionsFit_of_length (by decide)
  obtain ⟨-, hmethod, -, -, -, harity⟩ := descriptors_read_exactly "([[La)[;I)V" hfit
  have hcomponents : ∀ d ∈ ["[[La)[;", "I"], ∃ t, Ty.ofDescriptor d = .ok t :=
    List.forall_mem_cons.2 ⟨⟨_, rfl⟩, List.forall_mem_singleton.2 ⟨_, rfl⟩⟩
  exact ⟨hfit, (hmethod _).2 (by decide +kernel), harity _ "V" hcomponents (.inl rfl) (by decide +kernel)⟩

end Descriptor

end Recast
