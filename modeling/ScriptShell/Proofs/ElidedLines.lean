import ScriptShell.Text.MarkerLines

/-! # Marker lines are emptied in place

The three loops of `MarkerLines.elide` differ in what they make of the line that they are in: at its
start it is kept or emptied by its marker, inside it is copied or dropped.  They agree on the lines
behind it, so one induction on the bytes says what each of them does (`lines_elide_of_cons`), and
eliding is the map of `elideOne` over the lines (`lines_elide`).  A byte string is known by its
lines (`eq_of_lines_eq`), so what holds of `elideOne` carries over to whole files. -/

namespace ScriptShell.MarkerLines

variable {s t line first : Bytes} {rest : List Bytes} {b : UInt8}

/-! ## Lines -/

theorem lines_newline (s : Bytes) : lines (newline :: s) = [] :: lines s := by
  rw [lines, List.splitOn_cons_eq_if_modifyHead, if_pos (beq_self_eq_true _), lines]

theorem lines_cons (hb : b ≠ newline) (hs : lines s = first :: rest) :
    lines (b :: s) = (b :: first) :: rest := by
  rw [lines, List.splitOn_cons_eq_if_modifyHead, if_neg (by simpa using hb), ← lines, hs,
    List.modifyHead_cons]

theorem exists_lines (s : Bytes) : ∃ first rest, lines s = first :: rest :=
  List.exists_cons_of_ne_nil (List.splitOn_ne_nil newline s)

/-- Byte strings with the same lines are the same. -/
theorem eq_of_lines_eq (h : lines s = lines t) : s = t := by
  calc s = [newline].intercalate (lines s) := (List.intercalate_splitOn newline).symm
    _ = [newline].intercalate (lines t) := by rw [h]
    _ = t := List.intercalate_splitOn newline

/-! ## One line -/

theorem elideOne_marker (line : Bytes) : elideOne (marker :: line) = [] := by
  rw [elideOne, List.head?_cons, if_pos rfl]

theorem elideOne_of_head?_ne (h : line.head? ≠ some marker) : elideOne line = line := if_neg h

theorem head?_elideOne_ne (line : Bytes) : (elideOne line).head? ≠ some marker := by
  rw [elideOne]
  split
  · rintro ⟨⟩
  · assumption

theorem elideOne_elideOne (line : Bytes) : elideOne (elideOne line) = elideOne line :=
  elideOne_of_head?_ne (head?_elideOne_ne line)

/-! ## All lines -/

/-- From the start of a line its marker counts, inside a line that is kept the rest of it is kept,
and inside a marked one it is dropped; the lines behind it are elided in all three cases. -/
theorem lines_elide_of_cons (hs : lines s = first :: rest) :
    lines (elide s) = elideOne first :: rest.map elideOne ∧
      lines (copyLine s) = first :: rest.map elideOne ∧
      lines (elideLine s) = [] :: rest.map elideOne := by
  induction s generalizing first rest with
  | nil =>
    cases hs
    exact ⟨rfl, rfl, rfl⟩
  | cons b s ih =>
    obtain ⟨first', rest', hs'⟩ := exists_lines s
    obtain ⟨helide, hcopy, hdrop⟩ := ih hs'
    by_cases hb : b = newline
    · subst hb
      rw [lines_newline, hs'] at hs
      cases hs
      -- all three loops are at the start of the next line
      have hnext : lines (newline :: elide s) = [] :: (first' :: rest').map elideOne := by
        rw [lines_newline, helide, List.map_cons]
      have hmark : newline ≠ marker := by decide
      rw [elide, copyLine, elideLine, if_neg hmark, if_pos rfl]
      exact ⟨hnext, hnext, hnext⟩
    · rw [lines_cons hb hs'] at hs
      cases hs
      have hkeep : lines (b :: copyLine s) = (b :: first') :: rest.map elideOne :=
        lines_cons hb hcopy
      rw [elide, copyLine, elideLine, if_neg hb, if_neg hb]
      refine ⟨?_, hkeep, hdrop⟩
      by_cases hm : b = marker
      · rw [if_pos hm, hm, elideOne_marker, hdrop]
      · have hhead : (b :: first').head? ≠ some marker := fun h => hm (Option.some.inj h)
        rw [if_neg hm, elideOne_of_head?_ne hhead, hkeep]

theorem lines_elide (s : Bytes) : lines (elide s) = (lines s).map elideOne := by
  obtain ⟨first, rest, hs⟩ := exists_lines s
  rw [hs, List.map_cons]
  exact (lines_elide_of_cons hs).1

/-- **Marker lines are emptied where they stand.**  There are as many lines as before; each is empty
where the old one starts with the marker and is the old one elsewhere.  So no line that is left
starts with the marker, and there is nothing to elide in it any more. -/
theorem elided_lines (s : Bytes) :
    (lines (elide s)).length = (lines s).length ∧
      (∀ (i : Nat) (line : Bytes), (lines s)[i]? = some line →
        (lines (elide s))[i]? = some (if line.head? = some marker then [] else line)) ∧
      (∀ line ∈ lines (elide s), line.head? ≠ some marker) ∧
      elide (elide s) = elide s := by
  refine ⟨?_, fun i line hi => ?_, fun line hline => ?_, eq_of_lines_eq ?_⟩
  · rw [lines_elide, List.length_map]
  · rw [lines_elide, List.getElem?_map, hi]
    rfl
  · rw [lines_elide] at hline
    obtain ⟨line', -, rfl⟩ := List.mem_map.1 hline
    exact head?_elideOne_ne line'
  · rw [lines_elide, lines_elide, List.map_map]
    exact List.map_congr_left fun line _ => elideOne_elideOne line

/-- A marked first line and a marked last one, which no line break ends. -/
theorem elided_lines_ends :
    (lines (Utf8.encode "@a\nb\n@"))[1]? = some (Utf8.encode "b") ∧
      (lines (elide (Utf8.encode "@a\nb\n@")))[1]? = some (Utf8.encode "b") ∧
      (lines (Utf8.encode "@a\nb\n@"))[2]? = some (Utf8.encode "@") ∧
      (lines (elide (Utf8.encode "@a\nb\n@")))[2]? = some [] := by
  obtain ⟨-, hlines, -⟩ := elided_lines (Utf8.encode "@a\nb\n@")
  have hkept : (lines (Utf8.encode "@a\nb\n@"))[1]? = some (Utf8.encode "b") := by decide
  have hmarked : (lines (Utf8.encode "@a\nb\n@"))[2]? = some (Utf8.encode "@") := by decide
  exact ⟨hkept, hlines 1 _ hkept, hmarked, hlines 2 _ hmarked⟩

end ScriptShell.MarkerLines
