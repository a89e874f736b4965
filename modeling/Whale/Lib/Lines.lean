import Mathlib.Data.List.Basic

/-!
# Streams of lines

A stream is read up to a separator at a time. `read` gives the lines that are complete and the rest, and `read_lines`
is the round trip: lines without the separator, each ended by one, are read again whatever follows. By
`eq_of_prefix_sep`, what stands before the first separator is known from a prefix.
-/

namespace Lines

variable {α : Type} [DecidableEq α]

/-- The complete lines of a stream, and what follows the last of them. -/
def read (sep : α) : List α → List (List α) × List α
  | [] => ([], [])
  | b :: bs =>
    let (complete, rest) := read sep bs
    if b = sep then ([] :: complete, rest)
    else match complete with
      | line :: complete => ((b :: line) :: complete, rest)
      | [] => ([], b :: rest)

variable {sep : α}

theorem read_sep (bs : List α) : read sep (sep :: bs) = ([] :: (read sep bs).1, (read sep bs).2) := by
  simp [read]

/-- A line that is not over yet. -/
theorem read_of_not_mem : ∀ {part : List α}, sep ∉ part → read sep part = ([], part)
  | [], _ => rfl
  | b :: part, h => by
    have hb : b ≠ sep := fun he => h (he ▸ List.mem_cons_self)
    rw [read, read_of_not_mem fun hm => h (List.mem_cons_of_mem _ hm)]
    simp [hb]

/-- A line that is over, and what follows. -/
theorem read_line : ∀ {line : List α} (bs : List α), sep ∉ line →
    read sep (line ++ sep :: bs) = (line :: (read sep bs).1, (read sep bs).2)
  | [], bs, _ => read_sep bs
  | b :: line, bs, h => by
    have hb : b ≠ sep := fun he => h (he ▸ List.mem_cons_self)
    rw [List.cons_append, read, read_line bs fun hm => h (List.mem_cons_of_mem _ hm)]
    simp [hb]

theorem read_lines (part : List α) : ∀ {lines : List (List α)}, (∀ line ∈ lines, sep ∉ line) →
    read sep (lines.flatMap (· ++ [sep]) ++ part) = (lines ++ (read sep part).1, (read sep part).2)
  | [], _ => rfl
  | line :: lines, h => by
    have hline := h line List.mem_cons_self
    have ih := read_lines part fun l hl => h l (List.mem_cons_of_mem _ hl)
    rw [List.flatMap_cons, List.append_assoc, List.append_assoc, List.singleton_append, read_line _ hline, ih]
    rfl

omit [DecidableEq α] in
/-- What is before the separator of a prefix is before the first separator of the stream. -/
theorem eq_of_prefix_sep : ∀ {x y z : List α}, sep ∉ x → sep ∉ y → x ++ [sep] <+: y ++ sep :: z → x = y
  | [], [], _, _, _, _ => rfl
  | [], b :: y, _, _, hy, h => by
    have hb : sep = b := (List.cons_prefix_cons.mp h).1
    exact absurd (hb ▸ List.mem_cons_self) hy
  | a :: x, [], _, hx, _, h => by
    have ha : a = sep := (List.cons_prefix_cons.mp h).1
    exact absurd (ha ▸ List.mem_cons_self) hx
  | a :: x, b :: y, z, hx, hy, h => by
    have htail : x ++ [sep] <+: y ++ sep :: z := (List.cons_prefix_cons.mp h).2
    have hrest := eq_of_prefix_sep (fun hm => hx (List.mem_cons_of_mem _ hm))
      (fun hm => hy (List.mem_cons_of_mem _ hm)) htail
    rw [(List.cons_prefix_cons.mp h).1, hrest]

end Lines
