import Mathlib.Data.String.Basic

/-!
# Pointers into nested names

RFC 6901 writes a path of keys as one text: a slash before each key, with `~0` for a tilde in it and
`~1` for a slash.  `tokens` reads the keys back (`tokens_text`).
-/

namespace Metewand.Lib.Pointer

/-- One character replaced by a text. -/
def replaceChar (c : Char) (by' : List Char) (text : List Char) : List Char :=
  text.flatMap fun x => if x = c then by' else [x]

/-- Two characters replaced by one, from left to right. -/
def replacePair (a b by' : Char) : List Char → List Char
  | x :: y :: rest =>
      if x = a ∧ y = b then by' :: replacePair a b by' rest else x :: replacePair a b by' (y :: rest)
  | [x] => [x]
  | [] => []

def escape (key : List Char) : List Char := replaceChar '/' ['~', '1'] (replaceChar '~' ['~', '0'] key)

def unescape (token : List Char) : List Char := replacePair '~' '0' '~' (replacePair '~' '1' '/' token)

/-- The pointer along a path of keys. -/
def text (path : List (List Char)) : List Char := path.flatMap fun key => '/' :: escape key

/-- The keys of a pointer that is empty or starts with a slash. -/
def tokens (pointer : List Char) : List (List Char) := ((pointer.splitOn '/').drop 1).map unescape

/-! ## Escapes -/

/-- What an escaped character is. -/
def escapeChar (c : Char) : List Char :=
  if c = '~' then ['~', '0'] else if c = '/' then ['~', '1'] else [c]

theorem escape_eq (key : List Char) : escape key = key.flatMap escapeChar := by
  rw [escape, replaceChar, replaceChar, List.flatMap_assoc]
  congr 1
  funext c
  by_cases tilde : c = '~'
  · subst tilde
    rfl
  · by_cases slash : c = '/'
    · subst slash
      rfl
    · simp [escapeChar, tilde, slash]

theorem escape_cons (c : Char) (key : List Char) : escape (c :: key) = escapeChar c ++ escape key := by
  rw [escape_eq, escape_eq, List.flatMap_cons]

theorem slash_not_mem_escape (key : List Char) : '/' ∉ escape key := by
  rw [escape_eq, List.mem_flatMap]
  rintro ⟨c, -, member⟩
  unfold escapeChar at member
  split at member
  · simp at member
  · split at member
    · simp at member
    · rename_i slash
      exact slash (List.mem_singleton.mp member).symm

theorem replacePair_cons {a b by' x : Char} (other : x ≠ a) (rest : List Char) :
    replacePair a b by' (x :: rest) = x :: replacePair a b by' rest := by
  cases rest with
  | nil => rfl
  | cons y rest => rw [replacePair, if_neg fun pair => other pair.1]

/-- After the slashes are back, only the tildes are escaped. -/
theorem replacePair_escape (key : List Char) :
    replacePair '~' '1' '/' (escape key) = replaceChar '~' ['~', '0'] key := by
  induction key with
  | nil => rfl
  | cons c key ih =>
      rw [escape_cons, replaceChar, List.flatMap_cons, ← replaceChar, escapeChar]
      by_cases tilde : c = '~'
      · rw [if_pos tilde, if_pos tilde, List.cons_append, List.cons_append, List.nil_append, replacePair,
          if_neg (by decide), replacePair_cons (by decide), ih]
        rfl
      · rw [if_neg tilde, if_neg tilde]
        by_cases slash : c = '/'
        · rw [if_pos slash, List.cons_append, List.cons_append, List.nil_append, replacePair, if_pos ⟨rfl, rfl⟩, ih,
            slash]
          rfl
        · rw [if_neg slash, List.singleton_append, replacePair_cons tilde, ih]
          rfl

theorem unescape_escape (key : List Char) : unescape (escape key) = key := by
  rw [unescape, replacePair_escape]
  induction key with
  | nil => rfl
  | cons c key ih =>
      rw [replaceChar, List.flatMap_cons, ← replaceChar]
      by_cases tilde : c = '~'
      · rw [if_pos tilde, List.cons_append, List.cons_append, List.nil_append, replacePair, if_pos ⟨rfl, rfl⟩, ih,
          tilde]
      · rw [if_neg tilde, List.singleton_append, replacePair_cons tilde, ih]

/-! ## Paths -/

theorem text_cons (key : List Char) (path : List (List Char)) :
    text (key :: path) = '/' :: (escape key ++ text path) := List.flatMap_cons

theorem text_append (path path' : List (List Char)) : text (path ++ path') = text path ++ text path' :=
  List.flatMap_append

theorem splitOn_text (path : List (List Char)) : ∀ before : List Char, '/' ∉ before →
    (before ++ text path).splitOn '/' = before :: path.map escape := by
  induction path with
  | nil =>
      intro before none
      rw [text, List.flatMap_nil, List.append_nil, List.splitOn]
      refine List.splitOnP_eq_singleton fun c member => ?_
      have other : c ≠ '/' := fun same => none (same ▸ member)
      simpa using other
  | cons key path ih =>
      intro before none
      have first : before.splitOnP (· == '/') = [before] := by
        refine List.splitOnP_eq_singleton fun c member => ?_
        have other : c ≠ '/' := fun same => none (same ▸ member)
        simpa using other
      have rest := ih (escape key) (slash_not_mem_escape key)
      rw [List.splitOn] at rest ⊢
      rw [text_cons, List.splitOnP_append_cons _ _ (by decide), first, rest]
      rfl

/-- A pointer gives back its keys. -/
theorem tokens_text (path : List (List Char)) : tokens (text path) = path := by
  have split := splitOn_text path [] List.not_mem_nil
  rw [List.nil_append] at split
  rw [tokens, split, List.drop_one, List.tail_cons, List.map_map]
  have each : unescape ∘ escape = id := funext unescape_escape
  rw [each, List.map_id]

theorem text_injective {path path' : List (List Char)} (same : text path = text path') : path = path' := by
  rw [← tokens_text path, same, tokens_text]

end Metewand.Lib.Pointer
