import Recast.Ty.Basic
/-!
# Bounds — what the type variables of a scope extend

`<T extends Number & Comparable<T>>` is the entry `T ↦ [Number, Comparable<T>]`; a variable
without an entry has no declared bound.  Entries stand in the order of their names, so two bounds
with the same content are equal and print alike: the order is part of the type, and inserting
keeps it.
-/
namespace Recast

abbrev BoundEntry := String × List Ty

/-- Declared bounds by variable name, ordered by name. -/
structure TypeBounds where
  entries : List BoundEntry
  ordered : entries.Pairwise (fun a b => a.1 < b.1)

namespace TypeBounds

def insertEntry (e : BoundEntry) : List BoundEntry → List BoundEntry
  | [] => [e]
  | x :: xs =>
    if e.1 < x.1 then e :: x :: xs
    else if e.1 = x.1 then e :: xs
    else x :: insertEntry e xs

theorem mem_insertEntry {e y : BoundEntry} : ∀ {xs : List BoundEntry},
    y ∈ insertEntry e xs → y = e ∨ y ∈ xs
  | [], h => by simpa [insertEntry] using h
  | x :: xs, h => by
    unfold insertEntry at h
    split at h
    · simpa using h
    · split at h
      · rcases List.mem_cons.1 h with h | h
        · exact .inl h
        · exact .inr (List.mem_cons_of_mem _ h)
      · rcases List.mem_cons.1 h with h | h
        · exact .inr (h ▸ List.mem_cons_self)
        · exact (mem_insertEntry h).imp id (List.mem_cons_of_mem _)

theorem ordered_insertEntry (e : BoundEntry) : ∀ {xs : List BoundEntry},
    xs.Pairwise (fun a b => a.1 < b.1) → (insertEntry e xs).Pairwise (fun a b => a.1 < b.1)
  | [], _ => by simp [insertEntry]
  | x :: xs, h => by
    obtain ⟨hx, hxs⟩ := List.pairwise_cons.1 h
    unfold insertEntry
    split
    · rename_i hlt
      refine List.pairwise_cons.2 ⟨fun y hy => ?_, h⟩
      rcases List.mem_cons.1 hy with rfl | hy
      · exact hlt
      · exact String.lt_trans hlt (hx y hy)
    · split
      · rename_i heq
        exact List.pairwise_cons.2 ⟨fun y hy => heq ▸ hx y hy, hxs⟩
      · rename_i hlt hne
        refine List.pairwise_cons.2 ⟨fun y hy => ?_, ordered_insertEntry e hxs⟩
        rcases mem_insertEntry hy with rfl | hy
        · exact Std.lt_of_le_of_ne (Std.not_lt.1 hlt) (Ne.symm hne)
        · exact hx y hy

def empty : TypeBounds := ⟨[], .nil⟩

instance : Inhabited TypeBounds := ⟨empty⟩

/-- Set the bounds of one variable, replacing those it had. -/
def insert (b : TypeBounds) (name : String) (bounds : List Ty) : TypeBounds :=
  ⟨insertEntry (name, bounds) b.entries, ordered_insertEntry _ b.ordered⟩

/-- Of two entries with one name the later counts. -/
def ofList (entries : List BoundEntry) : TypeBounds :=
  entries.foldl (fun b e => b.insert e.1 e.2) empty

def get? (b : TypeBounds) (name : String) : Option (List Ty) := b.entries.lookup name

def contains (b : TypeBounds) (name : String) : Bool := (b.get? name).isSome

def size (b : TypeBounds) : Nat := b.entries.length

def isEmpty (b : TypeBounds) : Bool := b.entries.isEmpty

theorem lookup_entry (m name : String) (us : List Ty) (xs : List BoundEntry) :
    ((m, us) :: xs).lookup name = if name = m then some us else xs.lookup name := by
  rw [List.lookup_cons]
  by_cases h : name = m
  · simp [h]
  · simp [h, beq_eq_false_iff_ne.2 h]

theorem lookup_insertEntry (n name : String) (ts : List Ty) : ∀ xs : List BoundEntry,
    (insertEntry (n, ts) xs).lookup name = if name = n then some ts else xs.lookup name
  | [] => by simp [insertEntry, lookup_entry]
  | (m, us) :: xs => by
    unfold insertEntry
    split
    · rw [lookup_entry]
    · split
      · rename_i heq
        have heq : n = m := heq
        rw [lookup_entry, lookup_entry, ← heq]
        split <;> rfl
      · rename_i hne
        have hne : ¬ n = m := hne
        rw [lookup_entry, lookup_entry, lookup_insertEntry n name ts xs]
        by_cases h : name = m
        · simp [h, Ne.symm hne]
        · simp [h]

/-- Inserting sets the bounds of one variable and leaves those of the others. -/
theorem get?_insert (b : TypeBounds) (n name : String) (ts : List Ty) :
    (b.insert n ts).get? name = if name = n then some ts else b.get? name :=
  lookup_insertEntry n name ts b.entries

theorem ext {a b : TypeBounds} (h : a.entries = b.entries) : a = b := by
  cases a; cases b; cases h; rfl

end TypeBounds

end Recast
