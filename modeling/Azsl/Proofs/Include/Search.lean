/-
Azsl.Proofs.Include.Search — what is found on disk is a document that the include means.

A file is found by the components of its path, a document by the text of its path. The two agree
on every include in which each stretch between slashes counts as a component
(`isMatch_of_findFile?`). With a doubled slash, an inner dot or a slash at its end, an include
still finds a file, but the text of that file's path does not end with it.
-/
import Azsl.Include
import Azsl.Proofs.Uri.File

namespace Azsl

/-! ## Stretches and components -/

namespace FilePath

theorem splitSlashes_ne_nil (chars : List Char) : splitSlashes chars ≠ [] := by
  cases chars with
  | nil => simp [splitSlashes]
  | cons c rest =>
    rw [splitSlashes]
    split
    · simp
    · split <;> simp

theorem splitSlashes_slash (rest : List Char) :
    splitSlashes ('/' :: rest) = [] :: splitSlashes rest := by
  obtain ⟨first, others, hsplit⟩ := List.exists_cons_of_ne_nil (splitSlashes_ne_nil rest)
  rw [splitSlashes, hsplit]
  rfl

theorem splitSlashes_append (left right : List Char) :
    splitSlashes (left ++ '/' :: right) = splitSlashes left ++ splitSlashes right := by
  induction left with
  | nil => exact splitSlashes_slash right
  | cons c left ih =>
    obtain ⟨first, others, hsplit⟩ := List.exists_cons_of_ne_nil (splitSlashes_ne_nil left)
    rw [List.cons_append, splitSlashes, ih, splitSlashes, hsplit, List.cons_append]
    by_cases hc : c = '/'
    · simp [hc]
    · simp [hc]

/-- The stretches with slashes before them are the text with a slash before it. -/
theorem flatMap_splitSlashes (chars : List Char) :
    (splitSlashes chars).flatMap ('/' :: ·) = '/' :: chars := by
  induction chars with
  | nil => rfl
  | cons c chars ih =>
    obtain ⟨first, others, hsplit⟩ := List.exists_cons_of_ne_nil (splitSlashes_ne_nil chars)
    rw [hsplit, List.flatMap_cons] at ih
    rw [splitSlashes, hsplit]
    have hrest : first ++ others.flatMap ('/' :: ·) = chars := (List.cons.inj ih).2
    by_cases hc : c = '/'
    · simp [hc, hrest]
    · simp [hc, hrest]

/-- A stretch is a component of a path, not only a separator or a dot. -/
def counts (stretch : List Char) : Bool :=
  stretch ≠ [] && stretch ≠ ['.']

/-- The components of a text but for what stands for its start. -/
def names (chars : List Char) : List PathComponent :=
  ((splitSlashes chars).filter counts).map (component ∘ String.ofList)

theorem names_append (left right : List Char) :
    names (left ++ '/' :: right) = names left ++ names right := by
  rw [names, splitSlashes_append, List.filter_append, List.map_append]
  rfl

theorem names_slash (rest : List Char) : names ('/' :: rest) = names rest :=
  names_append [] rest

theorem root_not_mem_names (chars : List Char) : PathComponent.root ∉ names chars := by
  intro hmem
  obtain ⟨stretch, -, heq⟩ := List.mem_map.mp hmem
  rw [Function.comp_apply, component] at heq
  split at heq <;> cases heq

/-- The components of a path are those of its text, behind what stands for its start. -/
theorem components_eq (path : FilePath) :
    path.components =
      if path.isAbsolute then .root :: names path.text.toList
      else if path.stretches.head? = some "." then .current :: names path.text.toList
      else names path.text.toList := by
  have hcounts : (fun s : String => decide (s ≠ "" ∧ s ≠ ".")) ∘ String.ofList = counts := by
    funext stretch
    have hempty : String.ofList stretch = "" ↔ stretch = [] := String.ofList_inj
    have hdot : String.ofList stretch = "." ↔ stretch = ['.'] := String.ofList_inj
    simp [counts, hempty, hdot]
  have hinner : (path.stretches.filter fun s => s ≠ "" ∧ s ≠ ".").map component
      = names path.text.toList := by
    rw [names, stretches, List.filter_map, List.map_map, hcounts]
  simp only [components, hinner]

theorem names_suffix_components (path : FilePath) : names path.text.toList <:+ path.components := by
  rw [components_eq]
  split
  · exact List.suffix_cons _ _
  · split
    · exact List.suffix_cons _ _
    · exact List.suffix_refl _

/-! ## Plain texts -/

/-- Every stretch of a text counts, but for the one before a slash at its start. -/
def isPlain (chars : List Char) : Bool :=
  (splitSlashes (if chars.head? = some '/' then chars.tail else chars)).all counts

theorem componentText_component (stretch : String) :
    Uri.componentText (component stretch) = stretch := by
  unfold component
  split
  · rename_i heq
    exact heq.symm
  · rfl

/-- If every stretch counts, the text can be read off its components. -/
theorem slashed_names {chars : List Char} (h : (splitSlashes chars).all counts = true) :
    Uri.slashed (names chars) = '/' :: chars := by
  rw [names, List.filter_eq_self.mpr (List.all_eq_true.mp h), Uri.slashed, List.flatMap_map,
    ← flatMap_splitSlashes]
  congr 1
  funext stretch
  rw [Function.comp_apply, componentText_component, String.toList_ofList]

theorem slashed_append (left right : List PathComponent) :
    Uri.slashed (left ++ right) = Uri.slashed left ++ Uri.slashed right :=
  List.flatMap_append

variable {wanted : List Char}

theorem components_absolute (habsolute : wanted.head? = some '/') :
    (⟨String.ofList wanted⟩ : FilePath).components = .root :: names wanted := by
  rw [components_eq, if_pos (by simp [isAbsolute, habsolute])]
  simp only [String.toList_ofList]

theorem components_relative (hrelative : wanted.head? ≠ some '/') (hplain : isPlain wanted = true) :
    (⟨String.ofList wanted⟩ : FilePath).components = names wanted := by
  rw [isPlain, if_neg hrelative] at hplain
  obtain ⟨first, others, hsplit⟩ := List.exists_cons_of_ne_nil (splitSlashes_ne_nil wanted)
  have hfirst : counts first = true := by
    rw [hsplit] at hplain
    exact List.all_eq_true.mp hplain first List.mem_cons_self
  have hdot : String.ofList first ≠ "." := by
    intro heq
    rw [show first = ['.'] from String.ofList_inj.mp heq] at hfirst
    cases hfirst
  rw [components_eq, if_neg (by simp [isAbsolute, hrelative]), if_neg (by simp [stretches, hsplit, hdot])]
  simp only [String.toList_ofList]

/-- What is joined to a directory ends with the components that were joined. -/
theorem endsWith_join (root : FilePath) (hplain : isPlain wanted = true) :
    (root.join ⟨String.ofList wanted⟩).endsWith ⟨String.ofList wanted⟩ = true := by
  rw [endsWith, List.isSuffixOf_iff_suffix]
  by_cases hself : (⟨String.ofList wanted⟩ : FilePath).isAbsolute = true ∨ root.text = ""
  · have hjoined : root.join ⟨String.ofList wanted⟩ = ⟨String.ofList wanted⟩ := by
      rw [join, if_pos hself]
    simp only [hjoined, List.suffix_refl]
  · have hrelative : wanted.head? ≠ some '/' := by
      simpa [isAbsolute] using (not_or.mp hself).1
    rw [components_relative hrelative hplain]
    refine List.IsSuffix.trans ?_ (names_suffix_components _)
    rw [join, if_neg hself]
    split
    · rename_i hslash
      obtain ⟨front, hfront⟩ := List.getLast?_eq_some_iff.mp hslash
      rw [String.toList_append, hfront, String.toList_ofList, List.append_assoc,
        List.singleton_append, names_append]
      exact List.suffix_append _ _
    · have htext : (root.text ++ "/" ++ String.ofList wanted).toList
          = root.text.toList ++ '/' :: wanted := by simp
      rw [htext, names_append]
      exact List.suffix_append _ _

end FilePath

/-! ## Files that are found -/

namespace Include

/-- An include whose text says exactly which components are wanted, and not the letter of a
drive. -/
def isRegular (path : String) : Bool :=
  FilePath.isPlain (trimmed path) && !Uri.endsInDrive (trimmed path)

theorem isRegular_iff {path : String} : isRegular path = true ↔
    FilePath.isPlain (trimmed path) = true ∧ Uri.endsInDrive (trimmed path) = false := by
  simp [isRegular]

theorem endsWith_of_findFile? {system : FileSystem} {roots : List FilePath} {path : String}
    {file : FilePath} (h : findFile? system roots path = some file)
    (hplain : FilePath.isPlain (trimmed path) = true) :
    file.endsWith ⟨String.ofList (trimmed path)⟩ = true := by
  rw [findFile?] at h
  split at h
  · cases h
  · obtain ⟨root, -, hbelow⟩ := List.exists_of_findSome?_eq_some h
    rw [findBelow?] at hbelow
    split at hbelow
    · obtain rfl := Option.some.inj hbelow
      exact FilePath.endsWith_join root hplain
    · have hfound := List.find?_some hbelow
      exact hfound

/-- The components of a file are those of its directory and those of the include. -/
theorem slashed_of_endsWith {file : FilePath} {wanted : List Char}
    (habsolute : file.isAbsolute = true) (hplain : FilePath.isPlain wanted = true)
    (h : file.endsWith ⟨String.ofList wanted⟩ = true) :
    ∃ front, Uri.slashed (file.components.drop 1) = front ++ wanted ∧
      (front = [] ∨ ∃ above, front = above ++ ['/']) := by
  have hfile : file.components = .root :: FilePath.names file.text.toList := by
    rw [FilePath.components_eq, if_pos habsolute]
  rw [FilePath.endsWith, List.isSuffixOf_iff_suffix, hfile] at h
  rw [hfile, List.drop_succ_cons, List.drop_zero]
  have hroot := FilePath.root_not_mem_names file.text.toList
  by_cases hstart : wanted.head? = some '/'
  · obtain ⟨inner, rfl⟩ := List.head?_eq_some_iff.mp hstart
    rw [FilePath.components_absolute hstart, FilePath.names_slash] at h
    rw [FilePath.isPlain, if_pos hstart, List.tail_cons] at hplain
    rcases List.suffix_cons_iff.mp h with heq | hsuffix
    · refine ⟨[], ?_, .inl rfl⟩
      rw [← (List.cons.inj heq).2, FilePath.slashed_names hplain]
      rfl
    · exact absurd (hsuffix.subset List.mem_cons_self) hroot
  · rw [FilePath.components_relative hstart hplain] at h
    rw [FilePath.isPlain, if_neg hstart] at hplain
    rcases List.suffix_cons_iff.mp h with heq | ⟨above, habove⟩
    · exact absurd (heq ▸ List.mem_cons_self) (FilePath.root_not_mem_names wanted)
    · refine ⟨Uri.slashed above ++ ['/'], ?_, .inr ⟨_, rfl⟩⟩
      rw [← habove, FilePath.slashed_append, FilePath.slashed_names hplain]
      simp

theorem trimDots_suffix (chars : List Char) : trimDots chars <:+ chars := by
  fun_induction trimDots chars with
  | case1 rest ih => exact ih.trans ⟨['.', '/'], rfl⟩
  | case2 chars => exact List.suffix_refl _

/-- An include below a directory has no backslashes left. -/
theorem normalize_trimmed (path : String) :
    (trimmed path).map (fun c => if c = '\\' then '/' else c) = trimmed path := by
  refine (List.map_congr_left fun c hc => ?_).trans (List.map_id _)
  have hmem := (trimDots_suffix (normalize path).toList).subset hc
  rw [normalize, String.toList_ofList] at hmem
  obtain ⟨old, -, rfl⟩ := List.mem_map.mp hmem
  by_cases hold : old = '\\'
  · simp [hold]
  · simp [hold]

/-- What stands before the slash does not matter to how a text ends. -/
theorem endsInDrive_slash (above : List Char) {wanted : List Char} (hne : wanted ≠ []) :
    Uri.endsInDrive (above ++ '/' :: wanted) = Uri.endsInDrive wanted := by
  cases wanted using List.reverseRecOn with
  | nil => exact absurd rfl hne
  | append_singleton wanted last =>
    cases wanted using List.reverseRecOn with
    | nil => simp [Uri.endsInDrive]
    | append_singleton wanted letter => simp [Uri.endsInDrive]

/-- A document whose path ends with the components of a regular include is what it means. -/
theorem isMatch_of_endsWith {file : FilePath} {path : String} {uri : Uri}
    (huri : Uri.ofFilePath? file = some uri) (hregular : isRegular path = true)
    (h : file.endsWith ⟨String.ofList (trimmed path)⟩ = true) : isMatch uri path = true := by
  obtain ⟨hplain, hdrive⟩ := isRegular_iff.mp hregular
  have habsolute : file.isAbsolute = true := by
    by_contra hrelative
    rw [Uri.ofFilePath?, if_neg hrelative] at huri
    cases huri
  have hne : trimmed path ≠ [] := by
    intro heq
    rw [heq] at hplain
    cases hplain
  obtain ⟨front, hslashed, hfront⟩ := slashed_of_endsWith habsolute hplain h
  have hends : Uri.endsInDrive (front ++ trimmed path) = false := by
    rcases hfront with rfl | ⟨above, rfl⟩
    · rw [List.nil_append, hdrive]
    · rw [List.append_assoc, List.singleton_append, endsInDrive_slash above hne, hdrive]
  have hinner : file.components.drop 1 ≠ [] := by
    intro heq
    rw [heq] at hslashed
    exact hne (List.append_eq_nil_iff.mp hslashed.symm).2
  have hpath := Uri.filePath?_ofFilePath? huri hinner (hslashed ▸ hends)
  have hknown : (documentPath uri).toList
      = front.map (fun c => if c = '\\' then '/' else c) ++ trimmed path := by
    simp only [documentPath, hpath, hslashed, normalize, String.toList_ofList, List.map_append,
      normalize_trimmed]
  simp only [isMatch, hknown, List.length_append, Nat.add_sub_cancel, List.take_left,
    List.isEmpty_eq_false_iff.mpr hne, List.isSuffixOf_iff_suffix.mpr (List.suffix_append _ _),
    Bool.not_false, Bool.true_and, Bool.or_eq_true, beq_iff_eq]
  rcases hfront with rfl | ⟨above, rfl⟩
  · exact .inl (.inl rfl)
  · exact .inl (.inr (by simp))

/-- A file that is found on disk for a regular include is a document that the include means. -/
theorem isMatch_of_findFile? {system : FileSystem} {roots : List FilePath} {path : String}
    {file : FilePath} {uri : Uri} {chars : List Char}
    (hfind : findFile? system roots path = some file) (hread : read system file = .ok (uri, chars))
    (hregular : isRegular path = true) : isMatch uri path = true := by
  refine isMatch_of_endsWith ?_ hregular (endsWith_of_findFile? hfind (isRegular_iff.mp hregular).1)
  rw [read] at hread
  split at hread
  · cases hread
  · rename_i found hfound
    split at hread
    · cases hread
      exact hfound
    · cases hread

end Include

end Azsl
