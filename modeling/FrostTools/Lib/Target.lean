import Mathlib.Data.List.Nodup

namespace FrostTools

/-- What a path leads to: a file under its own name, standard output if that is no file, or a device or
a pipe that keeps nothing. -/
inductive Target where
  | file (name : String)
  | stdout
  | elsewhere
  deriving DecidableEq

/-- Where the paths lead, and which of them can be written. -/
structure Paths where
  resolve : String → Target
  canWrite : String → Bool

namespace Target

def fileName : Target → Option String
  | file name => some name
  | _ => none

variable {V : Type}

def filesOf (writes : List (Target × V)) : List String := writes.filterMap fun w => w.1.fileName

/-- A file has what was written to it last. -/
def contents (writes : List (Target × V)) (name : String) : Option V :=
  (writes.reverse.find? fun w => decide (w.1 = .file name)).map Prod.snd

def Shows (writes : List (Target × V)) (v : V) : Prop :=
  (.stdout, v) ∈ writes ∨ ∃ name, contents writes name = some v

variable {writes : List (Target × V)} {name : String} {v : V}

theorem contents_append {writes' : List (Target × V)} (h : contents writes' name = some v) :
    contents (writes ++ writes') name = some v := by
  obtain ⟨w, hfind, hv⟩ := Option.map_eq_some_iff.mp h
  rw [contents, List.reverse_append, List.find?_append, hfind, Option.some_or, Option.map_some, hv]

theorem mem_of_contents (h : contents writes name = some v) : (.file name, v) ∈ writes := by
  obtain ⟨w, hfind, rfl⟩ := Option.map_eq_some_iff.mp h
  have hmem := List.mem_reverse.mp (List.mem_of_find?_eq_some hfind)
  have htarget : w.1 = .file name := by simpa using List.find?_some hfind
  rwa [← htarget]

theorem contents_of_mem (h : (.file name, v) ∈ writes) (hnodup : (filesOf writes).Nodup) :
    contents writes name = some v := by
  induction writes with
  | nil => cases h
  | cons w writes ih =>
    rw [contents, List.reverse_cons, List.find?_append]
    rcases List.mem_cons.mp h with rfl | h
    · obtain ⟨hnew, -⟩ := List.nodup_cons.mp hnodup
      have hnone : writes.reverse.find? (fun w => decide (w.1 = .file name)) = none := by
        rw [List.find?_eq_none]
        intro w hw
        have hne : w.1 ≠ .file name := fun htarget => hnew
          (List.mem_filterMap.mpr ⟨w, List.mem_reverse.mp hw, by rw [htarget]; rfl⟩)
        simpa using hne
      rw [hnone]
      simp
    · have hrest : (filesOf writes).Nodup := hnodup.sublist ((List.sublist_cons_self _ _).filterMap _)
      obtain ⟨w', hfind, hv⟩ := Option.map_eq_some_iff.mp (ih h hrest)
      rw [hfind, Option.some_or, Option.map_some, hv]

/-- Without overwriting, a value can be read back unless it went elsewhere only. -/
theorem shows_iff (hnodup : (filesOf writes).Nodup) :
    Shows writes v ↔ ∃ w ∈ writes, w.2 = v ∧ w.1 ≠ .elsewhere := by
  constructor
  · rintro (hmem | ⟨name, hcontents⟩)
    · exact ⟨_, hmem, rfl, fun h => by cases h⟩
    · exact ⟨_, mem_of_contents hcontents, rfl, fun h => by cases h⟩
  · rintro ⟨⟨target, _⟩, hmem, rfl, htarget⟩
    cases target with
    | file name => exact .inr ⟨name, contents_of_mem hmem hnodup⟩
    | stdout => exact .inl hmem
    | elsewhere => exact absurd rfl htarget

end Target
end FrostTools
