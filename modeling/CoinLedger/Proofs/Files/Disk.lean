import CoinLedger.Files.Disk

/-!
What is relied on when files are replaced: at some places, a disk returns what was written there. Main
statements: looking changes nothing, and a replaced file has all of its new contents or is as before,
as are the files at other places.
-/

namespace CoinLedger.Disk

theorem run_bind {σ α β : Type} (x : StateM σ α) (f : α → StateM σ β) (w : σ) :
    (x >>= f) w = f (x w).1 (x w).2 := rfl

section Looking

variable {σ : Type} (disk : Disk (StateM σ))

/-- What is under a path in a state of the disk. -/
def look (w : σ) (path : String) : Option (Except FileFault (List UInt8)) := (disk.find? path w).1

/-- Questions leave the disk as it is. -/
structure Reads : Prop where
  isThere : ∀ path w, (disk.isThere path w).2 = w
  isDirectory : ∀ path w, (disk.isDirectory path w).2 = w
  read : ∀ path w, (disk.read path w).2 = w

/-- The places are files of their own, none of them in the way of another, and hold what was written:
a file that was put in its place or moved there is the one that is found, and a refusal to move it
leaves what was there. Directories around them, and writing to one, change nothing at the others. -/
structure Returns (places : List String) : Prop extends Reads disk where
  directory : ∀ place ∈ places, ∀ other ∈ places,
    ∀ around ∈ Path.lineage ((Path.parent? place).getD ""), ∀ w,
      disk.look (disk.makeDirectory around w).2 other = disk.look w other
  put : ∀ place ∈ places, ∀ bytes w, (disk.put place bytes w).1 = .ok () →
    disk.look (disk.put place bytes w).2 place = some (.ok bytes)
  put_other : ∀ place ∈ places, ∀ other ∈ places, other ≠ place → ∀ bytes w,
    disk.look (disk.put place bytes w).2 other = disk.look w other
  rename : ∀ source ∈ places, ∀ target ∈ places, ∀ w, (disk.rename source target w).1 = .ok () →
    disk.look (disk.rename source target w).2 target = disk.look w source
  rename_error : ∀ source ∈ places, ∀ target ∈ places, ∀ w fault,
    (disk.rename source target w).1 = .error fault →
      disk.look (disk.rename source target w).2 target = disk.look w target
  rename_other : ∀ source ∈ places, ∀ target ∈ places, ∀ other ∈ places,
    other ≠ source → other ≠ target → ∀ w,
      disk.look (disk.rename source target w).2 other = disk.look w other

end Looking

section Reading

variable {σ : Type} {disk : Disk (StateM σ)} (h : disk.Reads)

include h

theorem Reads.run_find? (path : String) (w : σ) : disk.find? path w = (disk.look w path, w) := by
  refine Prod.ext rfl ?_
  unfold find?
  rw [run_bind, h.isThere]
  split
  · exact h.read path w
  · rfl

theorem Reads.state_unlessDirectory (path : String) (result : Except FileFault Unit) (w : σ) :
    (disk.unlessDirectory path result w).2 = w := by
  cases result with
  | ok => rfl
  | error fault => exact h.isDirectory path w

/-- Making directories changes nothing at a place where making each of them changes nothing. -/
theorem Reads.look_makeLineage {place : String} {lineage : List String}
    (apart : ∀ around ∈ lineage, ∀ w,
      disk.look (disk.makeDirectory around w).2 place = disk.look w place) (w : σ) :
    disk.look (disk.makeLineage lineage w).2 place = disk.look w place := by
  induction lineage generalizing w with
  | nil => rfl
  | cons path outer ih =>
    have own := apart path List.mem_cons_self
    have others := ih fun around member => apart around (List.mem_cons_of_mem _ member)
    rw [makeLineage, run_bind]
    generalize (disk.makeDirectory path w).1 = result
    split
    · rw [run_bind]
      generalize (disk.makeLineage outer (disk.makeDirectory path w).2).1 = result
      split
      · rw [run_bind, h.state_unlessDirectory, own, others, own]
      · exact (others _).trans (own w)
    · rw [h.state_unlessDirectory, own]

end Reading

section Replacing

variable {σ : Type} {disk : Disk (StateM σ)} {places : List String}

/-- A file is not replaced for want of a directory or of its draft, or it is up to moving the draft. -/
theorem replace_cases (disk : Disk (StateM σ)) (path : String) (bytes : List UInt8) (w : σ) :
    let made := disk.makeDirectories ((Path.parent? path).getD "") w
    let draft := Path.withExtension path draftExtension
    let written := disk.put draft bytes made.2
    (∃ fault, disk.replace path bytes w = (.error fault, made.2)) ∨
      (∃ fault, disk.replace path bytes w = (.error fault, written.2)) ∨
      written.1 = .ok () ∧ disk.replace path bytes w = disk.rename draft path written.2 := by
  intro made draft written
  have run : disk.replace path bytes w = _ := run_bind (disk.makeDirectories _) _ w
  cases directory : made.1 with
  | error fault =>
    rw [directory] at run
    exact .inl ⟨fault, run⟩
  | ok =>
    rw [directory] at run
    dsimp only at run
    rw [run_bind] at run
    cases put : written.1 with
    | error fault =>
      rw [put] at run
      exact .inr (.inl ⟨fault, run⟩)
    | ok =>
      rw [put] at run
      exact .inr (.inr ⟨rfl, run⟩)

variable (h : disk.Returns places) {path : String} (known : path ∈ places)
  (draft : Path.withExtension path draftExtension ∈ places)

include h known

theorem Returns.look_makeDirectories {other : String} (member : other ∈ places) (w : σ) :
    disk.look (disk.makeDirectories ((Path.parent? path).getD "") w).2 other = disk.look w other :=
  h.look_makeLineage (h.directory path known other member) w

include draft

/-- A file that was replaced holds the new contents. -/
theorem Returns.look_replace_of_ok {bytes : List UInt8} {w : σ}
    (done : (disk.replace path bytes w).1 = .ok ()) :
    disk.look (disk.replace path bytes w).2 path = some (.ok bytes) := by
  rcases disk.replace_cases path bytes w with ⟨fault, run⟩ | ⟨fault, run⟩ | ⟨written, run⟩
  · rw [run] at done
    exact nomatch done
  · rw [run] at done
    exact nomatch done
  · rw [run] at done ⊢
    rw [h.rename _ draft _ known _ done, h.put _ draft _ _ written]

/-- A refusal at any point of the replacement leaves the old contents. -/
theorem Returns.look_replace_of_error (apart : path ≠ Path.withExtension path draftExtension)
    {bytes : List UInt8} {w : σ} {fault : FileFault}
    (refused : (disk.replace path bytes w).1 = .error fault) :
    disk.look (disk.replace path bytes w).2 path = disk.look w path := by
  have around := h.look_makeDirectories known known w
  have untouched := (h.put_other _ draft _ known apart bytes _).trans around
  rcases disk.replace_cases path bytes w with ⟨fault, run⟩ | ⟨fault, run⟩ | ⟨_, run⟩
  · rw [run]
    exact around
  · rw [run]
    exact untouched
  · rw [run] at refused ⊢
    exact (h.rename_error _ draft _ known _ _ refused).trans untouched

/-- Replacing a file changes nothing at another place. -/
theorem Returns.look_replace_other {other : String} (member : other ∈ places) (ne : other ≠ path)
    (apart : other ≠ Path.withExtension path draftExtension) (bytes : List UInt8) (w : σ) :
    disk.look (disk.replace path bytes w).2 other = disk.look w other := by
  have around := h.look_makeDirectories known member w
  have untouched := (h.put_other _ draft _ member apart bytes _).trans around
  rcases disk.replace_cases path bytes w with ⟨fault, run⟩ | ⟨fault, run⟩ | ⟨_, run⟩
  · rw [run]
    exact around
  · rw [run]
    exact untouched
  · rw [run]
    exact (h.rename_other _ draft _ known _ member apart ne _).trans untouched

end Replacing

end CoinLedger.Disk
