import Mathlib.Tactic.Lemma
import PenRover.Disk

/-!
# Files that were written

Writing a file sets one entry of the disk and creates no folder, so a name leads to the same path
before and after (`locate_put`).  From this a file that was written is there, holds what was
written, and writing the same again changes nothing (`readBytes_of_write`, `contains_of_write`,
`write_of_write`).
-/

namespace PenRover

namespace Place

/-- The path is that of a file, or one at which a file can be created. -/
inductive IsFor (path : Path) : Place → Prop
  | file (content : Content) : IsFor path (.file path content)
  | free : IsFor path (.free path)

end Place

namespace Disk

variable {disk : Disk} {path : Path} {node : Node} {content : Content}

/-! ### One entry -/

/-- What was put at a path is there. -/
lemma node?_put_self (path : Path) (node : Node) (disk : Disk) :
    (disk.put path node).node? path = some node := by
  induction disk with
  | nil => simp [put, node?]
  | cons entry disk ih =>
    rw [put]
    split
    next heq => simp [node?, beq_iff_eq.mp heq]
    next hne => simpa [node?, hne] using ih

/-- What is at another path is untouched. -/
lemma node?_put_of_ne {other : Path} (h : other ≠ path) :
    (disk.put path node).node? other = disk.node? other := by
  induction disk with
  | nil => simp [put, node?, Ne.symm h]
  | cons entry disk ih =>
    rw [put]
    split
    next heq =>
      obtain rfl := beq_iff_eq.mp heq
      simp [node?, Ne.symm h]
    · by_cases hother : entry.1 = other
      · simp [node?, hother]
      · simpa [node?, hother] using ih

/-- Setting an entry once more changes nothing. -/
lemma put_put (path : Path) (node : Node) (disk : Disk) :
    (disk.put path node).put path node = disk.put path node := by
  induction disk with
  | nil => simp [put]
  | cons entry disk ih =>
    obtain ⟨p, n⟩ := entry
    rw [put]
    split
    next heq => rw [put, if_pos heq]
    next hne => rw [put, if_neg hne, ih]

/-! ### Where a name leads -/

/-- No folder has a path at which there is a file or nothing. -/
lemma node?_of_isFor_follow {here : Path} {parts : List Text}
    (h : (disk.follow here parts).IsFor path) : disk.node? path ≠ some .folder := by
  induction parts generalizing here with
  | nil => exact nomatch h
  | cons part rest ih =>
    rw [follow] at h
    split at h
    · exact ih h
    · split at h
      · exact ih h
      · split at h
        · exact ih h
        next found hnode =>
          split at h
          · cases h
            rw [hnode]
            simp
          · exact nomatch h
        next hnode =>
          split at h
          · cases h
            rw [hnode]
            simp
          · split at h <;> exact nomatch h

/-- A file that is set at the end of the way is found on the same way: the way leads through folders
only, and these stay. -/
lemma follow_put {here : Path} {parts : List Text} (h : (disk.follow here parts).IsFor path)
    (content : Content) :
    (disk.put path (.file content)).follow here parts = .file path content := by
  have hpath := node?_of_isFor_follow h
  induction parts generalizing here with
  | nil => exact nomatch h
  | cons part rest ih =>
    rw [follow] at h ⊢
    split at h
    next hskip => rw [if_pos hskip, ih h]
    next hskip =>
      rw [if_neg hskip]
      split at h
      next hup => rw [if_pos hup, ih h]
      next hup =>
        rw [if_neg hup]
        split at h
        next hnode =>
          have hne : here ++ [part] ≠ path := fun heq => hpath (heq ▸ hnode)
          rw [node?_put_of_ne hne, hnode]
          exact ih h
        next found hnode =>
          split at h
          next hlast =>
            cases h
            rw [node?_put_self]
            exact if_pos hlast
          · exact nomatch h
        next hnode =>
          split at h
          next hlast =>
            cases h
            rw [node?_put_self]
            exact if_pos hlast
          · split at h <;> exact nomatch h

/-- A name leads to the file that was set at its path. -/
lemma locate_put {name : Text} (h : (disk.locate name).IsFor path) (content : Content) :
    (disk.put path (.file content)).locate name = .file path content := by
  unfold locate at h ⊢
  split at h
  · exact nomatch h
  · split at h
    · exact nomatch h
    next hslash =>
      rw [if_neg hslash]
      exact follow_put h content

/-! ### Writing and reading -/

/-- The disk after a file was written. -/
lemma write_eq_ok {name : Text} {after : Disk} (h : disk.write name content = .ok after) :
    name.contains (CodePoint.ofNat 0) = false ∧
      ∃ path, (disk.locate name).IsFor path ∧ after = disk.put path (.file content) := by
  unfold write at h
  split at h
  · exact nomatch h
  next hzero =>
    refine ⟨Bool.eq_false_iff.mpr hzero, ?_⟩
    split at h
    next hplace =>
      rw [hplace]
      exact ⟨_, .file _, (Except.ok.inj h).symm⟩
    next hplace =>
      rw [hplace]
      exact ⟨_, .free, (Except.ok.inj h).symm⟩
    all_goals exact nomatch h

section Write

variable {name : Text} {after : Disk}

/-- A file that was written is there. -/
theorem contains_of_write (h : disk.write name content = .ok after) :
    after.contains name = true := by
  obtain ⟨hzero, path, hplace, rfl⟩ := write_eq_ok h
  rw [contains, locate_put hplace]
  simp only [hzero, Bool.not_false]

/-- A file that was written holds the bytes that were written. -/
theorem readBytes_of_write {bytes : Bytes} (h : disk.write name (.bytes bytes) = .ok after) :
    after.readBytes name = .ok bytes := by
  obtain ⟨hzero, path, hplace, rfl⟩ := write_eq_ok h
  rw [readBytes, if_neg (Bool.eq_false_iff.mp hzero), locate_put hplace]

/-- A file that was written can be written again, to the same effect. -/
theorem write_of_write (h : disk.write name content = .ok after) :
    after.write name content = .ok after := by
  obtain ⟨hzero, path, hplace, rfl⟩ := write_eq_ok h
  rw [write, if_neg (Bool.eq_false_iff.mp hzero), locate_put hplace]
  exact congrArg Except.ok (put_put ..)

/-- Bytes are written as a whole; or the file cannot be opened, and the disk is as it was; or the
file holds the part of the bytes for which there was room, and nothing else. -/
lemma writeWithin_cases (disk : Disk) (room : Option Nat) (name : Text) (bytes : Bytes) :
    (∃ after, disk.writeWithin room name bytes = (none, after) ∧
      disk.write name (.bytes bytes) = .ok after) ∨
    (∃ error, disk.writeWithin room name bytes = (some (.unopened error), disk)) ∨
    ∃ n after, disk.writeWithin room name bytes = (some .noSpace, after) ∧ n < bytes.length ∧
      disk.write name (.bytes (bytes.take n)) = .ok after := by
  unfold writeWithin
  dsimp only
  cases hwrite : disk.write name (.bytes (bytes.take (room.getD bytes.length))) with
  | error error => exact .inr (.inl ⟨error, rfl⟩)
  | ok after =>
    rcases Nat.lt_or_ge (room.getD bytes.length) bytes.length with hroom | hroom
    · have hpart : (bytes.take (room.getD bytes.length)).length < bytes.length := by
        rwa [List.length_take_of_le (Nat.le_of_lt hroom)]
      exact .inr (.inr ⟨_, after, by rw [if_pos hpart], hroom, hwrite⟩)
    · rw [List.take_of_length_le hroom] at hwrite ⊢
      exact .inl ⟨after, congrArg (·, after) (if_neg (Nat.lt_irrefl _)), hwrite⟩

end Write

end Disk

end PenRover
