import Mathlib.Tactic.SplitIfs
import RegisterMachine.Files.Path

/-! What is written to a file is what is read from it. The way to a place goes through folders
alone, so no file that is put anywhere is in the way. -/
namespace RegisterMachine.Files

section
variable {f g : Files} {place : Location} {e : Entry}

/-- Two trees with the same folders, and files at the same places. -/
structure Alike (f g : Files) : Prop where
  home : f.home = g.home
  folder : ∀ place, f.find? place = some .folder ↔ g.find? place = some .folder
  missing : ∀ place, f.find? place = none ↔ g.find? place = none

theorem Alike.refl (f : Files) : f.Alike f := ⟨rfl, fun _ => .rfl, fun _ => .rfl⟩

theorem Alike.trans {h : Files} (first : f.Alike g) (second : g.Alike h) : f.Alike h where
  home := first.home.trans second.home
  folder := fun place => (first.folder place).trans (second.folder place)
  missing := fun place => (first.missing place).trans (second.missing place)

theorem Alike.follow (h : f.Alike g) (place : Location) (names : List String) :
    f.follow place names = g.follow place names := by
  induction names generalizing place with
  | nil => rfl
  | cons name rest ih =>
    have folder := h.folder place
    have missing := h.missing place
    unfold Files.follow
    split <;> split <;> simp_all

theorem Alike.locate (h : f.Alike g) (path : String) : f.locate path = g.locate path := by
  simp only [Files.locate, h.home, h.follow]

theorem Alike.destination (h : f.Alike g) (path : String) :
    f.destination path = g.destination path := by
  simp only [Files.destination, h.locate, h.folder]

theorem alike_put {old new : ByteArray} (h : f.find? place = some (.file old)) :
    f.Alike (f.put place (.file new)) := by
  have ne : place ≠ [] := by
    rintro rfl
    cases h
  refine ⟨rfl, fun other => ?_, fun other => ?_⟩ <;> by_cases same : other = place
  · rw [same, find?_put_self f ne, h]
    simp
  · rw [find?_put_ne f same]
  · rw [same, find?_put_self f ne, h]
    simp
  · rw [find?_put_ne f same]

theorem alike_appendAt {old : ByteArray} (h : f.find? place = some (.file old))
    (content : ByteArray) : f.Alike (f.appendAt place content) := by
  simp only [appendAt, h]
  exact alike_put h

theorem exists_find?_appendAt (ne : place ≠ []) (content : ByteArray) :
    ∃ new, (f.appendAt place content).find? place = some (.file new) := by
  unfold appendAt
  split <;> exact ⟨_, find?_put_self f ne _⟩

end

section
variable {f g : Files} {path : String} {place : Location}

theorem destination_eq_ok (h : f.destination path = .ok place) :
    '\x00' ∉ path.toList ∧ f.locate path = .ok place ∧ f.find? place ≠ some .folder := by
  unfold destination at h
  split at h
  · cases h
  next clear =>
    refine ⟨by simpa using clear, ?_⟩
    simp only at h
    split at h
    · cases h
    next found =>
      split at h
      · cases h
      next free =>
        cases h
        refine ⟨?_, free⟩
        split_ifs at found with long slash
        · split at found
          · cases found
          · split at found <;> cases found
        · exact found

theorem ne_nil_of_destination (h : f.destination path = .ok place) : place ≠ [] := by
  rintro rfl
  exact (destination_eq_ok h).2.2 rfl

end

end RegisterMachine.Files
