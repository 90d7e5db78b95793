/-!
# Blank characters

The characters that separate without showing, and trimming. Main statements: trimming a text
that starts and ends with a character that is not blank changes nothing (`trim_eq_self`),
and core's whitespace characters are all blank (`isBlank_of_isWhitespace`).

The blanks are those of Unicode and not those of ASCII alone. They are listed, for there are
twenty-five of them, and a test whether a character is blank is a search in that list.

Trimming works on lists of characters, from either end, the far end by turning the list around. A
text is turned into a list once, where it is read, and everything behind that goes by lists.
-/

namespace HollowFleet.Text

/-- The characters with the White_Space property. -/
def blanks : List Char :=
  ['\t', '\n', '\x0b', '\x0c', '\r', ' ', '\u0085', '\u00a0', '\u1680', '\u2000', '\u2001',
   '\u2002', '\u2003', '\u2004', '\u2005', '\u2006', '\u2007', '\u2008', '\u2009', '\u200a',
   '\u2028', '\u2029', '\u202f', '\u205f', '\u3000']

/-- Whether `c` is blank. -/
def isBlank (c : Char) : Bool := blanks.contains c

/-- Drops the blanks at both ends. -/
def trim (cs : List Char) : List Char :=
  (((cs.dropWhile isBlank).reverse).dropWhile isBlank).reverse

theorem isBlank_of_isWhitespace {c : Char} (h : c.isWhitespace = true) : isBlank c = true := by
  simp only [Char.isWhitespace, Bool.or_eq_true, decide_eq_true_eq] at h
  rcases h with ((h | h) | h) | h <;> subst h <;> decide

@[simp]
theorem trim_nil : trim [] = [] := rfl

theorem dropWhile_eq_self {p : Char → Bool} {cs : List Char}
    (h : ∀ c, cs.head? = some c → p c = false) : cs.dropWhile p = cs := by
  cases cs with
  | nil => rfl
  | cons c rest => simp [List.dropWhile, h c rfl]

theorem trim_eq_self {cs : List Char} (hfirst : ∀ c, cs.head? = some c → isBlank c = false)
    (hlast : ∀ c, cs.getLast? = some c → isBlank c = false) : trim cs = cs := by
  rw [trim, dropWhile_eq_self hfirst, dropWhile_eq_self, List.reverse_reverse]
  intro c hc
  exact hlast c (by rwa [List.head?_reverse] at hc)

end HollowFleet.Text
