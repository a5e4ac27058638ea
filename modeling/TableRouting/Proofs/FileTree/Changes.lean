import TableRouting.FileTree.Host

/-!
# What file operations change

Making directories changes no file.  Writing a file changes the file where the path
leads and no other one.  Where a path leads is read off its steps, whatever the tree
holds on the way.
-/

namespace TableRouting.FileTree

def place (here : Location) : List String → Location
  | [] => here
  | step :: rest =>
    if step = "." then place here rest
    else if step = ".." then place here.dropLast rest
    else place (here ++ [step]) rest

theorem place_append (here : Location) (first second : List String) :
    place here (first ++ second) = place (place here first) second := by
  induction first generalizing here with
  | nil => rfl
  | cons step rest ih =>
      rw [List.cons_append, place, place]
      split
      · exact ih here
      · split
        · exact ih here.dropLast
        · exact ih (here ++ [step])

theorem place_name (here : Location) {name : String} (hdot : name ≠ ".") (hdots : name ≠ "..") :
    place here [name] = here ++ [name] := by
  rw [place, if_neg hdot, if_neg hdots, place]

variable {tree after last : FileTree}

theorem get?_empty {location : Location} (hroot : location ≠ []) :
    ({} : FileTree).get? location = none := by
  rw [get?, if_neg hroot]
  exact Std.HashMap.getElem?_empty

/-- Steps that can be followed lead to their place. -/
theorem follow_eq {here location : Location} {steps : List String}
    (hfollow : tree.follow here steps = .ok location) : location = place here steps := by
  induction steps generalizing here with
  | nil =>
      rw [follow] at hfollow
      exact (Except.ok.inj hfollow).symm
  | cons step rest ih =>
      rw [follow] at hfollow
      rw [place]
      split at hfollow
      · simp at hfollow
      · simp at hfollow
      · split at hfollow
        · simp at hfollow
        · split at hfollow
          · rw [if_pos ‹_›]
            exact ih hfollow
          · rw [if_neg ‹_›]
            split at hfollow
            · rw [if_pos ‹_›]
              exact ih hfollow
            · rw [if_neg ‹_›]
              exact ih hfollow

def placeOf (workingDirectory : Location) (path : String) : Location :=
  place (if Path.isAbsolute path then [] else workingDirectory) (Path.fileSteps path)

theorem locateFile_eq {workingDirectory location : Location} {path : String}
    (hlocate : tree.locateFile workingDirectory path = .ok location) :
    location = placeOf workingDirectory path := by
  rw [locateFile] at hlocate
  split at hlocate
  · simp at hlocate
  · exact follow_eq hlocate

/-- Directories have been made where nothing was. -/
structure Grows (tree after : FileTree) : Prop where
  get? : ∀ location, after.get? location = tree.get? location ∨
    (tree.get? location = none ∧ after.get? location = some .directory)

theorem Grows.refl (tree : FileTree) : Grows tree tree :=
  ⟨fun _ => Or.inl rfl⟩

theorem Grows.trans (hfirst : Grows tree after) (hsecond : Grows after last) :
    Grows tree last := by
  constructor
  intro location
  rcases hfirst.get? location with hsame | ⟨hnone, hmade⟩
  · rw [← hsame]
    exact hsecond.get? location
  · rcases hsecond.get? location with hkept | ⟨hmissing, hlast⟩
    · exact Or.inr ⟨hnone, hkept.trans hmade⟩
    · exact Or.inr ⟨hnone, hlast⟩

/-- No file has changed. -/
theorem Grows.text? (hgrows : Grows tree after) (location : Location) :
    after.text? location = tree.text? location := by
  rw [FileTree.text?, FileTree.text?]
  rcases hgrows.get? location with hsame | ⟨hnone, hmade⟩
  · rw [hsame]
  · rw [hnone, hmade]

theorem grows_makeDirectory {workingDirectory : Location} {absolute : Bool} {steps : List String}
    (hmake : tree.makeDirectory workingDirectory absolute steps = .ok after) :
    Grows tree after := by
  rw [makeDirectory] at hmake
  split at hmake
  · simp at hmake
  · rename_i location hlocate
    split at hmake
    · simp at hmake
    · rename_i hfree
      obtain rfl := Except.ok.inj hmake
      have hnone : tree.get? location = none := by
        simpa using (not_or.mp hfree).2
      have hroot : location ≠ [] := by
        rintro rfl
        simp at hnone
      constructor
      intro other
      by_cases hother : other = location
      · rw [hother, get?_set_self tree hroot]
        exact Or.inr ⟨hnone, rfl⟩
      · exact Or.inl (get?_set_of_ne tree hother _)

theorem grows_makeDirectories (workingDirectory : Location) (absolute : Bool)
    (paths : List (List String)) (tree : FileTree) :
    Grows tree (makeDirectories workingDirectory absolute paths tree).2 := by
  induction paths generalizing tree with
  | nil => exact Grows.refl tree
  | cons steps outer ih =>
      rw [makeDirectories]
      split
      · exact grows_makeDirectory ‹_›
      · have houter := ih tree
        generalize makeDirectories workingDirectory absolute outer tree = made at houter
        obtain ⟨e | made, grown⟩ := made
        · exact houter
        · simp only
          split
          · exact houter.trans (grows_makeDirectory ‹_›)
          · split <;> exact houter
      · split <;> exact Grows.refl tree

/-- Making a directory and those above it changes no file. -/
theorem grows_createDirAll (tree : FileTree) (workingDirectory : Location) (path : String) :
    Grows tree (tree.createDirAll workingDirectory path).2 := by
  rw [createDirAll]
  split
  · exact Grows.refl tree
  · split
    · exact Grows.refl tree
    · exact grows_makeDirectories _ _ _ _

/-- A file has got a new text, and no other file has changed. -/
structure Writes (tree after : FileTree) (location : Location) (change : String → String) :
    Prop where
  here : after.text? location = some (change ((tree.text? location).getD ""))
  elsewhere : ∀ other, other ≠ location → after.text? other = tree.text? other

theorem writes_set {location : Location} (hroot : location ≠ []) (text : String)
    {change : String → String} (htext : text = change ((tree.text? location).getD "")) :
    Writes tree (tree.set location (.file text)) location change := by
  constructor
  · rw [text?, get?_set_self tree hroot, htext]
  · intro other hother
    rw [text?, get?_set_of_ne tree hother, text?]

/-- Writing a file changes the text where its path leads. -/
theorem writes_writeFile {workingDirectory : Location} {path : String} {change : String → String}
    (hwrite : tree.writeFile workingDirectory path change = .ok after) :
    Writes tree after (placeOf workingDirectory path) change := by
  rw [writeFile] at hwrite
  split at hwrite
  · simp at hwrite
  · rename_i location hlocate
    rw [← locateFile_eq hlocate]
    split at hwrite
    · simp at hwrite
    · rename_i text hfile
      obtain rfl := Except.ok.inj hwrite
      apply writes_set
      · rintro rfl
        simp at hfile
      · rw [text?, hfile, Option.getD_some]
    · rename_i hmissing
      obtain rfl := Except.ok.inj hwrite
      apply writes_set
      · rintro rfl
        simp at hmissing
      · rw [text?, hmissing, Option.getD_none]

/-- A file can be written where its path leads, unless a directory stands there. -/
theorem exists_writeFile_iff {workingDirectory : Location} {path : String}
    {change : String → String} :
    (∃ after, tree.writeFile workingDirectory path change = .ok after) ↔
      ∃ location, tree.locateFile workingDirectory path = .ok location ∧
        tree.get? location ≠ some .directory := by
  rw [writeFile]
  cases tree.locateFile workingDirectory path with
  | error e => simp
  | ok location =>
      cases hentry : tree.get? location with
      | none => simp [hentry]
      | some entry => cases entry <;> simp [hentry]

end TableRouting.FileTree
