import KernelDispatch.Directory

/-!
# Reading what was written

A file holds what was put into it and what was added since; the other files are not
touched by either. The directory itself stays where it is, so a path leads to the same
place whatever is written.

## Main definitions

* `Directory.Holds` — a file and its content.

## Main results

* `Holds.append` — what a file holds after more was written to it.
* `read?_append` — a file that was not written to.
-/

namespace KernelDispatch.Directory

variable {d d' : Directory} {path : String} {bytes : ByteArray}

/-- A path leads to a file with this content. -/
def Holds (d : Directory) (path : String) (bytes : ByteArray) : Prop :=
  ∃ name, d.locate? path = some (.file name) ∧ d.files.get? name = some bytes

theorem locate?_congr (h : d'.path = d.path) (path : String) :
    d'.locate? path = d.locate? path := by
  unfold locate?
  rw [h]

@[simp] theorem path_append (d : Directory) (path : String) (bytes : ByteArray) :
    (d.append path bytes).path = d.path := by
  unfold append
  split <;> rfl

/-- A file is left alone by what is written to another one. -/
theorem read?_append {log : String}
    (h : ∀ name, d.locate? log = some (.file name) → d.locate? path ≠ some (.file name))
    (bytes : ByteArray) : (d.append log bytes).read? path = d.read? path := by
  have hlocate := locate?_congr (path_append d log bytes) path
  unfold read?
  rw [hlocate]
  cases hplace : d.locate? path with
  | none => rfl
  | some place =>
      cases place with
      | nullDevice => rfl
      | file name =>
          dsimp only
          unfold append
          split
          · rename_i other hother
            have hne : name ≠ other := by
              rintro rfl
              exact h name hother hplace
            exact NameMap.get?_insert_of_ne _ _ hne
          · rfl

namespace Holds

theorem read? (h : d.Holds path bytes) : d.read? path = some bytes := by
  obtain ⟨name, hplace, hheld⟩ := h
  simp only [Directory.read?, hplace, hheld]

/-- A file that is there is opened as it is. -/
theorem create? (h : d.Holds path bytes) : d.create? path = some d := by
  obtain ⟨name, hplace, hheld⟩ := h
  have hcontains : d.files.contains name = true := by
    rw [NameMap.contains, hheld, Option.isSome_some]
  simp only [Directory.create?, hplace, hcontains, if_true]

/-- What is written to a file is added at its end. -/
theorem append (h : d.Holds path bytes) (more : ByteArray) :
    (d.append path more).Holds path (bytes ++ more) := by
  obtain ⟨name, hplace, hheld⟩ := h
  refine ⟨name, ?_, ?_⟩
  · rw [locate?_congr (path_append d path more), hplace]
  · simp only [Directory.append, hplace, hheld, Option.getD_some, NameMap.get?_insert_self]

end Holds

end KernelDispatch.Directory
