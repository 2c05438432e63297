import Mathlib.Data.List.DropRight
import ContentQuery.FileTree

namespace ContentQuery

theorem decodeText_toUTF8 (text : String) : decodeText text.toUTF8 = .ok text := by
  have hvalid : String.fromUTF8? text.toUTF8 = some text := dif_pos text.isValidUTF8
  rw [decodeText, hvalid]

namespace FileTree

/-- What stands in the tree under the given names. -/
def entry (tree : FileTree) (names : List String) : Except FileError Place :=
  match tree.files.find? fun file => file.1 = names with
  | some file => .ok (.file file.1 file.2)
  | none => if tree.isDirectory names then .ok (.directory names) else .error .notFound

theorem step_directory_cases (dir : List String) (name : String) :
    (∃ out, out ≠ .error .notFound ∧ (∀ names content, out ≠ .ok (.file names content)) ∧
        ∀ tree : FileTree, tree.step name (.directory dir) = out) ∨
      ∀ tree : FileTree, tree.step name (.directory dir) = tree.entry (dir ++ [name]) := by
  by_cases hself : name = "" ∨ name = "."
  · exact Or.inl ⟨.ok (.directory dir), by simp, by simp, fun tree => by rw [step, if_pos hself]⟩
  by_cases hparent : name = ".."
  · refine Or.inl ⟨if dir.isEmpty then .ok .above else .ok (.directory dir.dropLast), ?_, ?_,
      fun tree => by rw [step, if_neg hself, if_pos hparent]⟩
    · split <;> simp
    · split <;> simp
  by_cases hlong : maxNameSize < name.utf8ByteSize
  · exact Or.inl ⟨.error .nameTooLong, by simp, by simp,
      fun tree => by rw [step, if_neg hself, if_neg hparent, if_pos hlong]⟩
  · exact Or.inr fun tree => by
      rw [step, if_neg hself, if_neg hparent, if_neg hlong]
      rfl

variable {tree tree' : FileTree} {names : List String}

/-- The trees differ at most under the given names, under which the second one has a file. -/
structure DiffersAt (names : List String) (content : ByteArray) (tree tree' : FileTree) : Prop where
  written : tree'.entry names = .ok (.file names content)
  directory : ∀ {dir}, tree.entry dir = .ok (.directory dir) →
    tree'.entry dir = .ok (.directory dir)

theorem entry_directory_eq {dir : List String} (h : tree.entry names = .ok (.directory dir)) :
    dir = names := by
  unfold entry at h
  split at h
  · cases h
  · split at h
    · cases h
      rfl
    · cases h

theorem DiffersAt.step {content : ByteArray} (h : DiffersAt names content tree tree')
    {name : String} {place place' : Place} (hplace : ∀ file bytes, place' ≠ .file file bytes)
    (hstep : tree.step name place = .ok place') : tree'.step name place = .ok place' := by
  cases place with
  | file => cases hstep
  | device => cases hstep
  | above => exact hstep
  | system => exact hstep
  | directory dir =>
      rcases step_directory_cases dir name with ⟨out, -, -, hout⟩ | hentry
      · rw [hout] at hstep ⊢
        exact hstep
      · rw [hentry] at hstep ⊢
        have hdir : ∃ dir', place' = .directory dir' := by
          unfold entry at hstep
          split at hstep
          · cases hstep
            exact absurd rfl (hplace _ _)
          · split at hstep
            · cases hstep
              exact ⟨_, rfl⟩
            · cases hstep
        obtain ⟨dir', rfl⟩ := hdir
        obtain rfl := entry_directory_eq hstep
        exact h.directory hstep

theorem follow_cons (tree : FileTree) (name : String) (names : List String) (place : Place) :
    tree.follow (name :: names) place = tree.step name place >>= tree.follow names :=
  List.foldlM_cons

theorem follow_append (tree : FileTree) (names names' : List String) (place : Place) :
    tree.follow (names ++ names') place = tree.follow names place >>= tree.follow names' :=
  List.foldlM_append

theorem DiffersAt.follow {content : ByteArray} (h : DiffersAt names content tree tree')
    {path : List String} {place : Place} {dir : List String}
    (hfollow : tree.follow path place = .ok (.directory dir)) :
    tree'.follow path place = .ok (.directory dir) := by
  induction path generalizing place with
  | nil => exact hfollow
  | cons name path ih =>
      rw [follow_cons] at hfollow ⊢
      cases hstep : tree.step name place with
      | error error =>
          rw [hstep] at hfollow
          cases hfollow
      | ok place' =>
          rw [hstep] at hfollow
          have hplace : ∀ file bytes, place' ≠ .file file bytes := by
            rintro file bytes rfl
            cases path with
            | nil => cases hfollow
            | cons next path =>
                have hnext := follow_cons tree next path (.file file bytes)
                cases hnext.symm.trans hfollow
          rw [h.step hplace hstep]
          exact ih hfollow

/-- The names of the files. -/
def paths (tree : FileTree) : List (List String) := tree.files.map Prod.fst

theorem isDirectory_iff {dir : List String} :
    tree.isDirectory dir = true ↔ dir = [] ∨ ∃ path ∈ tree.paths, dir <+: path ∧ dir ≠ path := by
  simp [isDirectory, paths]

theorem entry_eq_directory_iff {dir : List String} :
    tree.entry dir = .ok (.directory dir) ↔
      dir ∉ tree.paths ∧ (dir = [] ∨ ∃ path ∈ tree.paths, dir <+: path ∧ dir ≠ path) := by
  unfold entry
  split
  · rename_i file hfile
    have hname : file.1 = dir := by simpa using List.find?_some hfile
    have hmem : dir ∈ tree.paths := hname ▸ List.mem_map_of_mem (List.mem_of_find?_eq_some hfile)
    simp [hmem]
  · rename_i hnone
    have hmem : dir ∉ tree.paths := by
      rintro hmem
      obtain ⟨file, hfile, hname⟩ := List.mem_map.mp hmem
      exact absurd (List.find?_eq_none.mp hnone file hfile) (by simp [hname])
    rw [← isDirectory_iff]
    simp [hmem]

theorem differsAt_replace {content bytes : ByteArray}
    (h : tree.entry names = .ok (.file names bytes)) :
    DiffersAt names content tree
      ⟨tree.files.map fun file => if file.1 = names then (names, content) else file⟩ := by
  have hname : ∀ file : List String × ByteArray,
      (if file.1 = names then (names, content) else file).1 = file.1 := by
    intro file
    split
    · rename_i hfile
      exact hfile.symm
    · rfl
  constructor
  · unfold entry at h
    split at h
    · rename_i file hfile
      have hnamed : file.1 = names := by simpa using List.find?_some hfile
      unfold entry
      rw [List.find?_map]
      simp only [Function.comp_def, hname, hfile, Option.map_some, hnamed, if_true]
    · split at h <;> cases h
  · intro dir hdir
    have hpaths : paths ⟨tree.files.map fun file =>
        if file.1 = names then (names, content) else file⟩ = tree.paths := by
      simp only [paths, List.map_map, Function.comp_def, hname]
    rw [entry_eq_directory_iff] at hdir ⊢
    rwa [hpaths]

theorem differsAt_append {content : ByteArray} (h : tree.entry names = .error .notFound) :
    DiffersAt names content tree ⟨tree.files ++ [(names, content)]⟩ := by
  constructor
  · unfold entry at h
    split at h
    · cases h
    · rename_i hnone
      simp [entry, List.find?_append, hnone]
  · intro dir hdir
    have hne : dir ≠ names := by
      rintro rfl
      cases h.symm.trans hdir
    have hpaths : paths ⟨tree.files ++ [(names, content)]⟩ = tree.paths ++ [names] := by
      simp [paths]
    rw [entry_eq_directory_iff] at hdir ⊢
    obtain ⟨hnone, hdir⟩ := hdir
    rw [hpaths]
    constructor
    · simp [hnone, hne]
    · rcases hdir with hdir | ⟨path, hpath, hprefix⟩
      · exact Or.inl hdir
      · exact Or.inr ⟨path, List.mem_append_left _ hpath, hprefix⟩

theorem ofSystem?_ne_file {dirs : List String} {name : String} {bytes : ByteArray} :
    Place.ofSystem? dirs name ≠ some (.file names bytes) := by
  unfold Place.ofSystem?
  split_ifs <;> simp

theorem exists_directory_of_step_file {name : String} {place : Place} {bytes : ByteArray}
    (h : tree.step name place = .ok (.file names bytes)) : ∃ dir, place = .directory dir := by
  cases place with
  | directory dir => exact ⟨dir, rfl⟩
  | file => cases h
  | device => cases h
  | above =>
      simp only [step] at h
      split_ifs at h
      cases h
  | system dirs =>
      simp only [step] at h
      split_ifs at h
      · cases h
      · cases h
      · split at h
        · rename_i place hplace
          cases h
          exact absurd hplace ofSystem?_ne_file
        · cases h

theorem differsAt_of_step {name : String} {dir : List String} {content : ByteArray}
    (h : (∃ names bytes, tree.step name (.directory dir) = .ok (.file names bytes) ∧
        tree' = ⟨tree.files.map fun file => if file.1 = names then (names, content) else file⟩) ∨
      (tree.step name (.directory dir) = .error .notFound ∧
        tree' = ⟨tree.files ++ [(dir ++ [name], content)]⟩)) :
    DiffersAt (dir ++ [name]) content tree tree' ∧
      tree'.step name (.directory dir) = tree'.entry (dir ++ [name]) := by
  rcases step_directory_cases dir name with ⟨out, hmissing, hfile, hout⟩ | hentry
  · rcases h with ⟨names, bytes, hstep, -⟩ | ⟨hstep, -⟩
    · exact absurd (hout tree ▸ hstep) (hfile _ _)
    · exact absurd (hout tree ▸ hstep) hmissing
  · refine ⟨?_, hentry tree'⟩
    rcases h with ⟨names, bytes, hstep, rfl⟩ | ⟨hstep, rfl⟩
    · rw [hentry] at hstep
      have hnames : names = dir ++ [name] := by
        unfold entry at hstep
        split at hstep
        · rename_i file hfile
          cases hstep
          simpa using List.find?_some hfile
        · split at hstep <;> cases hstep
      subst hnames
      exact differsAt_replace hstep
    · exact differsAt_append (hentry tree ▸ hstep)

theorem eq_append_of_getLast? {names : List String} {name : String}
    (hlast : (names.rdropWhile String.isEmpty).getLast? = some name)
    (hlength : ¬ (names.rdropWhile String.isEmpty).length < names.length) :
    names = (names.rdropWhile String.isEmpty).dropLast ++ [name] := by
  have hall : names.rdropWhile String.isEmpty = names :=
    (List.rdropWhile_prefix String.isEmpty names).eq_of_length_le (Nat.not_lt.mp hlength)
  rw [hall] at hlast ⊢
  exact (List.dropLast_append_getLast? name hlast).symm

/-- A file is stored under the last name of the path, in the directory to which the names before it
lead. -/
theorem exists_differsAt_of_write {path : String} {content : ByteArray}
    (h : tree.write path content = .ok (.stored tree')) :
    ∃ start before name dir, begin path = .ok (start, before ++ [name]) ∧
      tree.follow before start = .ok (.directory dir) ∧
      DiffersAt (dir ++ [name]) content tree tree' ∧
      tree'.step name (.directory dir) = tree'.entry (dir ++ [name]) := by
  unfold write at h
  cases hbegin : begin path with
  | error error =>
      rw [hbegin] at h
      cases h
  | ok found =>
      obtain ⟨start, names⟩ := found
      rw [hbegin] at h
      simp only [bind, Except.bind] at h
      split at h
      · cases h
      · rename_i name hlast
        split at h
        · cases h
        · rename_i parent hparent
          split at h
          · cases h
          · cases h
          · split_ifs at h with hname
            rw [not_or] at hname
            have hnames := eq_append_of_getLast? hlast hname.1
            split at h
            · rename_i hstep
              obtain ⟨dir, rfl⟩ := exists_directory_of_step_file hstep
              have hstored : DiffersAt (dir ++ [name]) content tree tree' ∧
                  tree'.step name (.directory dir) = tree'.entry (dir ++ [name]) :=
                differsAt_of_step (Or.inl ⟨_, _, hstep, by cases h; rfl⟩)
              exact ⟨start, _, name, dir, congrArg (fun names => Except.ok (start, names)) hnames,
                hparent, hstored⟩
            · cases h
            · cases h
            · cases h
            · rename_i dir _ _ hstep
              have hstored : DiffersAt (dir ++ [name]) content tree tree' ∧
                  tree'.step name (.directory dir) = tree'.entry (dir ++ [name]) :=
                differsAt_of_step (Or.inr ⟨hstep, by cases h; rfl⟩)
              exact ⟨start, _, name, dir, congrArg (fun names => Except.ok (start, names)) hnames,
                hparent, hstored⟩
            · cases h
            · cases h

/-- What is stored in a file is what the path to it leads to. -/
theorem readText_of_write {path text : String} (input : ByteArray)
    (h : tree.write path text.toUTF8 = .ok (.stored tree')) :
    tree'.readText input path = .ok text := by
  obtain ⟨start, before, name, dir, hbegin, hfollow, hdiffers, hentry⟩ :=
    exists_differsAt_of_write h
  have hplace : tree'.follow (before ++ [name]) start =
      .ok (.file (dir ++ [name]) text.toUTF8) := by
    rw [follow_append, hdiffers.follow hfollow]
    change tree'.follow [name] (.directory dir) = _
    rw [follow_cons, hentry, hdiffers.written]
    rfl
  have hbytes : tree'.readBytes input path = .ok text.toUTF8 := by
    simp only [readBytes, hbegin, bind, Except.bind, hplace]
    rfl
  rw [readText, hbytes]
  exact decodeText_toUTF8 text

end FileTree

end ContentQuery
