/-!
# Texts with separators

`splitOn` cuts a text at every separator, so that there is one part more than there are separators
and no part holds one. Joining the parts gives the text back (`joinChars_splitChars`).
-/

namespace DeviceTree.Text

/-- The parts of a list of characters between the separators. -/
def splitChars (separator : Char) : List Char → List (List Char)
  | [] => [[]]
  | c :: rest =>
    if c = separator then [] :: splitChars separator rest
    else match splitChars separator rest with
      | part :: parts => (c :: part) :: parts
      | [] => [[c]]

/-- The parts one after another with separators between them. -/
def joinChars (separator : Char) : List (List Char) → List Char
  | [] => []
  | [part] => part
  | part :: parts => part ++ separator :: joinChars separator parts

/-- The parts of a text between the separators. -/
def splitOn (separator : Char) (text : String) : List String :=
  (splitChars separator text.toList).map String.ofList

theorem splitChars_ne_nil (separator : Char) (cs : List Char) : splitChars separator cs ≠ [] := by
  cases cs with
  | nil => simp [splitChars]
  | cons c rest =>
    rw [splitChars]
    split
    · simp
    · split <;> simp

theorem splitOn_ne_nil (separator : Char) (text : String) : splitOn separator text ≠ [] := by
  simpa [splitOn] using splitChars_ne_nil separator text.toList

theorem joinChars_cons_cons {separator c : Char} {part : List Char} {parts : List (List Char)} :
    joinChars separator ((c :: part) :: parts) = c :: joinChars separator (part :: parts) := by
  cases parts <;> rfl

theorem joinChars_splitChars (separator : Char) (cs : List Char) :
    joinChars separator (splitChars separator cs) = cs := by
  induction cs with
  | nil => rfl
  | cons c rest ih =>
    obtain ⟨part, parts, split⟩ := List.exists_cons_of_ne_nil (splitChars_ne_nil separator rest)
    rw [split] at ih
    by_cases same : c = separator
    · simp [splitChars, same, split, joinChars, ih]
    · simp [splitChars, same, split, joinChars_cons_cons, ih]

theorem not_mem_of_mem_splitChars {separator : Char} {cs part : List Char}
    (h : part ∈ splitChars separator cs) : separator ∉ part := by
  induction cs generalizing part with
  | nil => simp [splitChars] at h; simp [h]
  | cons c rest ih =>
    obtain ⟨first, parts, split⟩ := List.exists_cons_of_ne_nil (splitChars_ne_nil separator rest)
    rw [split] at ih
    by_cases same : c = separator
    · simp only [splitChars, same, split, if_true, List.mem_cons] at h
      rcases h with rfl | rfl | h
      · simp
      · exact ih (by simp)
      · exact ih (by simp [h])
    · simp only [splitChars, same, split, if_false, List.mem_cons] at h
      rcases h with rfl | h
      · have clean : separator ∉ first := ih (by simp)
        simp [Ne.symm same, clean]
      · exact ih (by simp [h])

end DeviceTree.Text
