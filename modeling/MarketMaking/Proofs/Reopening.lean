import MarketMaking.FileTree
import MarketMaking.Toml.Value

/-!
# Files that are opened again

A path leads where it led before as long as no directory is taken away, and writing to files takes
none. So once the directories on the way to a file have been made and the file has been written, the
same path opens that file, with what was written to it.
-/

namespace MarketMaking.FileTree

/-! ### More directories -/

/-- The directories of a tree are among those of another one at the same depth. -/
structure Extends (t u : FileTree) : Prop where
  depth_eq : u.depth = t.depth
  subset : t.directories ⊆ u.directories

variable {t u w : FileTree}

theorem Extends.refl (t : FileTree) : Extends t t := ⟨rfl, List.Subset.refl _⟩

theorem Extends.trans (first : Extends t u) (second : Extends u w) : Extends t w :=
  ⟨second.depth_eq.trans first.depth_eq, List.Subset.trans first.subset second.subset⟩

private theorem node?_eq_directory_iff {parts : List String} :
    t.node? parts = some .directory ↔ isGiven parts = true ∨ parts ∈ t.directories := by
  unfold node?
  split
  · simp [*]
  · next hnot =>
    simp only [hnot, iff_false]
    split
    · simp
    · cases t.files.lookup parts <;> simp

namespace Extends

private theorem node?_eq_directory (more : Extends t u) {parts : List String}
    (found : t.node? parts = some .directory) : u.node? parts = some .directory := by
  rw [node?_eq_directory_iff] at found ⊢
  exact found.imp_right (more.subset ·)

private theorem descend_eq (more : Extends t u) (base : List String) (part : String) :
    u.descend base part = t.descend base part := by
  unfold descend above
  rw [more.depth_eq]

private theorem resolve_eq (more : Extends t u) {base parts place : List String}
    (resolved : t.resolve base parts = .ok place) : u.resolve base parts = .ok place := by
  induction parts generalizing base with
  | nil => exact resolved
  | cons part parts ih =>
    unfold resolve at resolved ⊢
    cases hbase : t.node? base with
    | none =>
      rw [hbase] at resolved
      cases resolved
    | some node =>
      rw [hbase] at resolved
      cases node with
      | directory =>
        rw [more.node?_eq_directory hbase, more.descend_eq]
        exact ih resolved
      | _ => cases resolved

end Extends

/-! ### Making directories -/

private theorem exists_of_makeBelow_cons {base parts : List String} {part : String}
    (made : makeBelow base (part :: parts) t = .ok u) :
    ∃ v, Extends t v ∧ v.node? (t.descend base part) = some .directory ∧
      makeBelow (t.descend base part) parts v = .ok u := by
  unfold makeBelow at made
  cases hplace : t.node? (t.descend base part) with
  | none =>
    simp only [hplace] at made
    split at made
    · cases made
    · refine ⟨{ t with directories := t.directories ++ [t.descend base part] }, ?_, ?_, made⟩
      · exact ⟨rfl, List.subset_append_left _ _⟩
      · exact node?_eq_directory_iff.mpr (.inr List.mem_concat_self)
  | some node =>
    simp only [hplace] at made
    cases node with
    | directory => exact ⟨t, .refl t, hplace, made⟩
    | _ => cases made

private theorem extends_of_makeBelow {base parts : List String}
    (made : makeBelow base parts t = .ok u) : Extends t u := by
  induction parts generalizing base t with
  | nil =>
    obtain rfl := Except.ok.inj made
    exact .refl t
  | cons part parts ih =>
    obtain ⟨v, hv, -, hbelow⟩ := exists_of_makeBelow_cons made
    exact hv.trans (ih hbelow)

private theorem Extends.makeBelow_eq {base parts : List String} (more : Extends u w)
    (made : makeBelow base parts t = .ok u) : makeBelow base parts w = .ok w := by
  induction parts generalizing base t with
  | nil => rfl
  | cons part parts ih =>
    obtain ⟨v, hv, hplace, hbelow⟩ := exists_of_makeBelow_cons made
    have hvw : Extends v w := (extends_of_makeBelow hbelow).trans more
    unfold makeBelow
    simp only [(hv.trans hvw).descend_eq, hvw.node?_eq_directory hplace]
    exact ih hbelow

/-- The way to a file that has been made is not made again. -/
theorem Extends.makeDirectories_eq {p : Path} (more : Extends u w)
    (made : t.makeDirectories p = .ok u) : w.makeDirectories p = .ok w := by
  unfold makeDirectories at made ⊢
  split at made
  · cases made
  · next hnul =>
    rw [if_neg hnul]
    split at made
    · cases made
    · next hlong =>
      rw [if_neg hlong]
      exact more.makeBelow_eq made

/-! ### Writing files -/

/-- Writing to a file takes no directory away. -/
theorem extends_write (t : FileTree) (parts : List String) (content : ByteArray) :
    Extends t (t.write parts content) := by
  unfold write
  split <;> exact ⟨rfl, List.Subset.refl _⟩

/-- A file that is written has that content. -/
theorem lookup_write (t : FileTree) (parts : List String) (content : ByteArray) :
    (t.write parts content).files.lookup parts = some content := by
  unfold write
  cases found : t.files.lookup parts with
  | none => simp [List.lookup_append, found]
  | some existing => simp [Toml.Table.lookup_replace, found]

/-- What is a file or nothing is a file with its content once it is written. -/
theorem node?_write {parts : List String} {existing : Option ByteArray}
    (found : t.node? parts = existing.map .file) (content : ByteArray) :
    (t.write parts content).node? parts = some (.file content) := by
  have hdirectories : (t.write parts content).directories = t.directories := by
    unfold write
    split <;> rfl
  have hlookup := t.lookup_write parts content
  unfold node? at found ⊢
  rw [hdirectories, hlookup]
  split at found
  · cases existing <;> cases found
  · next hnot =>
    rw [if_neg hnot]
    split at found
    · cases existing <;> cases found
    · rfl

/-! ### Opening files -/

/-- A path opens a file for writing, at some place and with some content so far, if there is one. -/
structure Opens (t : FileTree) (p : Path) (parts : List String) (existing : Option ByteArray) :
    Prop where
  holdsNul : p.holdsNul = false
  isTooLong : p.isTooLong = false
  namesDirectory : p.namesDirectory = false
  resolve_eq : t.resolve [] p.parts = .ok parts
  node?_eq : t.node? parts = existing.map .file

/-- What a path opens is decided by what is at the place that it leads to. -/
theorem openForWriting_of_resolve {p : Path} {parts : List String} (holdsNul : p.holdsNul = false)
    (isTooLong : p.isTooLong = false) (resolved : t.resolve [] p.parts = .ok parts) :
    t.openForWriting p = match t.node? parts with
      | some .directory => .error .isDirectory
      | some (.file content) =>
          if p.namesDirectory then .error .notDirectory else .ok (.file parts (some content))
      | some (.device d) => if p.namesDirectory then .error .notDirectory else .ok (.device d)
      | none =>
          if parts.getLast?.any Path.isLongName then .error .nameTooLong
          else if p.namesDirectory then .error .isDirectory
          else .ok (.file parts none) := by
  unfold openForWriting
  rw [holdsNul, isTooLong, resolved]
  rfl

/-- A path that opens for writing opens what is there, or a new file where there is nothing. -/
theorem opens_of_openForWriting {p : Path} {parts : List String} {existing : Option ByteArray}
    (opened : t.openForWriting p = .ok (.file parts existing)) : Opens t p parts existing := by
  have hnul : p.holdsNul = false := by
    apply Bool.eq_false_iff.mpr
    intro h
    simp [openForWriting, h, bind, Except.bind] at opened
  have hlong : p.isTooLong = false := by
    apply Bool.eq_false_iff.mpr
    intro h
    simp [openForWriting, hnul, h, bind, Except.bind] at opened
  cases hplace : t.resolve [] p.parts with
  | error e => simp [openForWriting, hnul, hlong, hplace, bind, Except.bind] at opened
  | ok place =>
    rw [openForWriting_of_resolve hnul hlong hplace] at opened
    -- Only two of the ways to open a path come to a file.
    cases hnode : t.node? place with
    | none =>
      simp only [hnode] at opened
      split at opened
      · cases opened
      · split at opened
        · cases opened
        · next hfile =>
          cases opened
          exact ⟨hnul, hlong, Bool.eq_false_iff.mpr hfile, hplace, hnode⟩
    | some node =>
      cases node with
      | directory => simp [hnode] at opened
      | file content =>
        simp only [hnode] at opened
        split at opened
        · cases opened
        · next hfile =>
          cases opened
          exact ⟨hnul, hlong, Bool.eq_false_iff.mpr hfile, hplace, hnode⟩
      | device d =>
        simp only [hnode] at opened
        split at opened <;> cases opened

namespace Opens

variable {p : Path} {parts : List String} {existing : Option ByteArray} {content : ByteArray}

/-- A file that is there is opened with its content. -/
theorem openForWriting_eq (opens : Opens t p parts (some content)) :
    t.openForWriting p = .ok (.file parts (some content)) := by
  rw [openForWriting_of_resolve opens.holdsNul opens.isTooLong opens.resolve_eq, opens.node?_eq]
  simp [opens.namesDirectory]

/-- A file that has been written is opened by the same path, with what was written. -/
theorem write (opens : Opens t p parts existing) (content : ByteArray) :
    Opens (t.write parts content) p parts (some content) where
  holdsNul := opens.holdsNul
  isTooLong := opens.isTooLong
  namesDirectory := opens.namesDirectory
  resolve_eq := (extends_write t parts content).resolve_eq opens.resolve_eq
  node?_eq := node?_write opens.node?_eq content

/-- A file that is opened with a content is read with that content. -/
theorem read?_eq (opens : Opens t p parts (some content)) (ne : p.text ≠ "") :
    t.read? p.text = some content := by
  have hlookup : t.lookup? p.text = some (.file content) := by
    unfold lookup?
    rw [Path.ofString?, if_neg ne]
    simp [opens.isTooLong, opens.resolve_eq, Except.toOption, opens.node?_eq, opens.namesDirectory]
  rw [read?, hlookup]

end Opens

end MarketMaking.FileTree
