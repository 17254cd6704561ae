/-
JSON documents as the encoder writes them.

A document is a tree whose objects list their fields in the order of
insertion, and `write` is the text the encoder gives it.

* `readChar_escapeChar` — the scanner of strings undoes the escapes;
* `unambiguous` — whatever follows it, the text of a document is the text of
  no other one;
* `write_injective` — so the text determines the document.

The text of an integer is written out here; how a float is written is a
parameter, of which `FloatText` says what the encoder relies on.
-/
import NeuralScalpel.Decimals
import NeuralScalpel.JsonValue
import Mathlib.Data.List.TakeWhile
import Mathlib.Data.String.Basic

open JsonValue

namespace JsonText

/-! ### Characters of a number -/

/-- The characters of an integer. -/
def isIntChar (c : Char) : Bool := c.isDigit || c == '-'

/-- The characters of a number, of `Infinity` and of `NaN`. -/
def isNumberChar (c : Char) : Bool :=
  isIntChar c || ['.', '+', 'e', 'E', 'I', 'n', 'f', 'i', 't', 'y', 'N', 'a'].contains c

/-- What a number may start with. -/
def isNumberHead (c : Char) : Bool := isIntChar c || c == 'I' || c == 'N'

end JsonText

/-- The floats of a document, and how the encoder writes them. -/
structure FloatText (φ : Type) where
  /-- `float.__repr__`, and the names of the values that are not finite. -/
  repr : φ → List Char
  value : φ → Scalar
  injective : Function.Injective repr
  chars : ∀ x, ∀ c ∈ repr x, JsonText.isNumberChar c = true
  head : ∀ x, ∃ c rest, repr x = c :: rest ∧ JsonText.isNumberHead c = true
  not_int : ∀ x, ∃ c ∈ repr x, JsonText.isIntChar c = false

/-- What the encoder puts between two items and after a key. -/
structure Separators where
  item : List Char
  key : List Char
  comma : ∃ rest, item = ',' :: rest

namespace JsonText

/-- `separators=(',', ':')`. -/
def compact : Separators := ⟨[','], [':'], [], rfl⟩

/-- The separators of a plain `json.dump`. -/
def spaced : Separators := ⟨[',', ' '], [':', ' '], [' '], rfl⟩

/-! ### Writing -/

def writeInt : ℤ → List Char
  | .ofNat n => Nat.toDigits 10 n
  | .negSucc n => '-' :: Nat.toDigits 10 (n + 1)

/-- Four hexadecimal digits. -/
def hex4 (n : ℕ) : List Char :=
  [(n / 4096 % 16).digitChar, (n / 256 % 16).digitChar, (n / 16 % 16).digitChar,
    (n % 16).digitChar]

def unicodeEscape (n : ℕ) : List Char := '\\' :: 'u' :: hex4 n

/-- One character inside a string, in ASCII. -/
def escapeChar (c : Char) : List Char :=
  if c = '"' then ['\\', '"']
  else if c = '\\' then ['\\', '\\']
  else if c = '\n' then ['\\', 'n']
  else if c = '\r' then ['\\', 'r']
  else if c = '\t' then ['\\', 't']
  else if c = '\x0c' then ['\\', 'f']
  else if c = '\x08' then ['\\', 'b']
  else if 32 ≤ c.toNat ∧ c.toNat < 127 then [c]
  else if c.toNat < 65536 then unicodeEscape c.toNat
  else
    -- outside the basic plane: a surrogate pair
    unicodeEscape (0xd800 + (c.toNat - 65536) / 1024) ++
      unicodeEscape (0xdc00 + (c.toNat - 65536) % 1024)

def writeString (s : String) : List Char := '"' :: (s.toList.flatMap escapeChar ++ ['"'])

section

variable {φ : Type} (floats : FloatText φ) (separators : Separators)

mutual

/-- The text of a document. -/
def write : JsonValue φ → List Char
  | .null => ['n', 'u', 'l', 'l']
  | .bool b => if b then ['t', 'r', 'u', 'e'] else ['f', 'a', 'l', 's', 'e']
  | .int n => writeInt n
  | .float x => floats.repr x
  | .str s => writeString s
  | .arr [] => ['[', ']']
  | .arr (v :: rest) => '[' :: (write v ++ writeElems rest)
  | .obj [] => ['{', '}']
  | .obj ((k, v) :: rest) =>
    '{' :: (writeString k ++ separators.key ++ write v ++ writeFields rest)

/-- The elements after the first, and the closing bracket. -/
def writeElems : List (JsonValue φ) → List Char
  | [] => [']']
  | v :: rest => separators.item ++ write v ++ writeElems rest

def writeFields : List (String × JsonValue φ) → List Char
  | [] => ['}']
  | (k, v) :: rest =>
    separators.item ++ writeString k ++ separators.key ++ write v ++ writeFields rest

end

/-! What is written for each kind of document. -/

theorem write_null : write floats separators .null = ['n', 'u', 'l', 'l'] := rfl

theorem write_bool (b : Bool) : write floats separators (.bool b) =
    if b then ['t', 'r', 'u', 'e'] else ['f', 'a', 'l', 's', 'e'] := rfl

theorem write_int (n : ℤ) : write floats separators (.int n) = writeInt n := rfl

theorem write_float (x : φ) : write floats separators (.float x) = floats.repr x := rfl

theorem write_str (s : String) : write floats separators (.str s) = writeString s := rfl

theorem write_arr_nil : write floats separators (.arr []) = ['[', ']'] := rfl

theorem write_arr_cons (v : JsonValue φ) (rest : List (JsonValue φ)) :
    write floats separators (.arr (v :: rest)) =
      '[' :: (write floats separators v ++ writeElems floats separators rest) := rfl

theorem write_obj_nil : write floats separators (.obj []) = ['{', '}'] := rfl

theorem write_obj_cons (e : String × JsonValue φ) (rest : List (String × JsonValue φ)) :
    write floats separators (.obj (e :: rest)) =
      '{' :: (writeString e.1 ++ separators.key ++ write floats separators e.2 ++
        writeFields floats separators rest) := rfl

theorem writeElems_nil : writeElems floats separators [] = [']'] := rfl

theorem writeElems_cons (v : JsonValue φ) (rest : List (JsonValue φ)) :
    writeElems floats separators (v :: rest) =
      separators.item ++ write floats separators v ++ writeElems floats separators rest := rfl

theorem writeFields_nil : writeFields floats separators [] = ['}'] := rfl

theorem writeFields_cons (e : String × JsonValue φ) (rest : List (String × JsonValue φ)) :
    writeFields floats separators (e :: rest) =
      separators.item ++ writeString e.1 ++ separators.key ++ write floats separators e.2 ++
        writeFields floats separators rest := rfl

end

/-! ### Reading a string back -/

def hexValue (c : Char) : ℕ := if c.isDigit then c.toNat - 48 else c.toNat - 87

def readHex4 : List Char → Option (ℕ × List Char)
  | a :: b :: c :: d :: rest =>
    some (hexValue a * 4096 + hexValue b * 256 + hexValue c * 16 + hexValue d, rest)
  | _ => none

/-- The character a short escape stands for. -/
def unescape (c : Char) : Char :=
  if c = 'n' then '\n'
  else if c = 'r' then '\r'
  else if c = 't' then '\t'
  else if c = 'f' then '\x0c'
  else if c = 'b' then '\x08'
  else c

/-- The character of one code unit, or of a surrogate and its partner. -/
def readUnit (unit : ℕ) (rest : List Char) : Option (Char × List Char) :=
  if unit < 0xd800 ∨ 0xe000 ≤ unit then some (Char.ofNat unit, rest)
  else
    -- the partner stands behind another backslash and `u`
    (readHex4 (rest.drop 2)).map fun low =>
      (Char.ofNat (65536 + (unit - 0xd800) * 1024 + (low.1 - 0xdc00)), low.2)

/-- What follows a backslash. -/
def readEscape : List Char → Option (Char × List Char)
  | [] => none
  | c :: rest =>
    if c = 'u' then (readHex4 rest).bind fun unit => readUnit unit.1 unit.2
    else some (unescape c, rest)

def readChar : List Char → Option (Char × List Char)
  | [] => none
  | c :: rest => if c = '\\' then readEscape rest else some (c, rest)

theorem hexValue_digitChar {n : ℕ} (h : n < 16) : hexValue n.digitChar = n := by
  have hall : ∀ d : Fin 16, hexValue d.val.digitChar = d.val := by decide
  exact hall ⟨n, h⟩

theorem readHex4_hex4 {n : ℕ} (h : n < 65536) (rest : List Char) :
    readHex4 (hex4 n ++ rest) = some (n, rest) := by
  have h₁ := hexValue_digitChar (Nat.mod_lt (n / 4096) (show 0 < 16 by decide))
  have h₂ := hexValue_digitChar (Nat.mod_lt (n / 256) (show 0 < 16 by decide))
  have h₃ := hexValue_digitChar (Nat.mod_lt (n / 16) (show 0 < 16 by decide))
  have h₄ := hexValue_digitChar (Nat.mod_lt n (show 0 < 16 by decide))
  show some (_, rest) = _
  rw [h₁, h₂, h₃, h₄]
  congr 2
  omega

theorem readChar_unicodeEscape {n : ℕ} (h : n < 65536) (rest : List Char) :
    readChar (unicodeEscape n ++ rest) = readUnit n rest := by
  show readChar ('\\' :: 'u' :: (hex4 n ++ rest)) = _
  rw [readChar, if_pos rfl, readEscape, if_pos rfl, readHex4_hex4 h, Option.bind_some]

theorem readChar_surrogates {n : ℕ} (h : n < 1048576) (rest : List Char) :
    readChar (unicodeEscape (0xd800 + n / 1024) ++ unicodeEscape (0xdc00 + n % 1024) ++ rest) =
      some (Char.ofNat (65536 + n), rest) := by
  have hdrop : (unicodeEscape (0xdc00 + n % 1024) ++ rest).drop 2 =
      hex4 (0xdc00 + n % 1024) ++ rest := rfl
  have hpoint : 65536 + (0xd800 + n / 1024 - 0xd800) * 1024 + (0xdc00 + n % 1024 - 0xdc00) =
      65536 + n := by omega
  rw [List.append_assoc, readChar_unicodeEscape (by omega), readUnit, if_neg (by omega), hdrop,
    readHex4_hex4 (by omega), Option.map_some, hpoint]

/-- Code points leave out the surrogates. -/
theorem toNat_valid (c : Char) :
    c.toNat < 0xd800 ∨ (0xe000 ≤ c.toNat ∧ c.toNat < 0x110000) := by
  have h : c.toNat.isValidChar := c.valid
  unfold Nat.isValidChar at h
  omega

/-- The scanner reads back the character that was escaped. -/
theorem readChar_escapeChar (c : Char) (rest : List Char) :
    readChar (escapeChar c ++ rest) = some (c, rest) := by
  have hvalid := toNat_valid c
  unfold escapeChar
  by_cases hq : c = '"'
  · subst hq; rfl
  by_cases hb : c = '\\'
  · subst hb; rfl
  by_cases hn : c = '\n'
  · subst hn; rfl
  by_cases hr : c = '\r'
  · subst hr; rfl
  by_cases ht : c = '\t'
  · subst ht; rfl
  by_cases hf : c = '\x0c'
  · subst hf; rfl
  by_cases h8 : c = '\x08'
  · subst h8; rfl
  rw [if_neg hq, if_neg hb, if_neg hn, if_neg hr, if_neg ht, if_neg hf, if_neg h8]
  by_cases hprint : 32 ≤ c.toNat ∧ c.toNat < 127
  · rw [if_pos hprint]
    rw [List.singleton_append, readChar, if_neg hb]
  · rw [if_neg hprint]
    by_cases hplane : c.toNat < 65536
    · rw [if_pos hplane, readChar_unicodeEscape hplane, readUnit, if_pos (by omega),
        Char.ofNat_toNat]
    · rw [if_neg hplane, readChar_surrogates (by omega)]
      rw [Nat.add_sub_cancel' (Nat.le_of_not_lt hplane), Char.ofNat_toNat]

/-! ### The text determines the document -/

/-- Escaped strings end at their closing quote. -/
theorem flatMap_escapeChar_inj : ∀ {cs cs' rest rest' : List Char},
    cs.flatMap escapeChar ++ '"' :: rest = cs'.flatMap escapeChar ++ '"' :: rest' →
      cs = cs' ∧ rest = rest' := by
  -- a quote is never what an escape starts with, so the scanner tells the two apart
  have hquote : ∀ (c : Char) (text rest : List Char), escapeChar c ++ text ≠ '"' :: rest := by
    intro c text rest h
    have hread := readChar_escapeChar c text
    rw [h, readChar, if_neg (by decide), Option.some_inj] at hread
    have hc : c = '"' := (congrArg Prod.fst hread).symm
    subst hc
    cases h
  intro cs
  induction cs with
  | nil =>
    intro cs' rest rest' h
    cases cs' with
    | nil => exact ⟨rfl, (List.cons.inj h).2⟩
    | cons c' cs' =>
      rw [List.flatMap_cons, List.append_assoc] at h
      exact absurd h.symm (hquote _ _ _)
  | cons c cs ih =>
    intro cs' rest rest' h
    rw [List.flatMap_cons, List.append_assoc] at h
    cases cs' with
    | nil => exact absurd h (hquote _ _ _)
    | cons c' cs' =>
      rw [List.flatMap_cons, List.append_assoc] at h
      have hread := congrArg readChar h
      rw [readChar_escapeChar, readChar_escapeChar, Option.some_inj] at hread
      obtain ⟨hcs, hrest⟩ := ih (congrArg Prod.snd hread)
      exact ⟨List.cons_eq_cons.mpr ⟨congrArg Prod.fst hread, hcs⟩, hrest⟩

theorem writeString_append_inj {s s' : String} {rest rest' : List Char}
    (h : writeString s ++ rest = writeString s' ++ rest') : s = s' ∧ rest = rest' := by
  have hbody : ∀ (s : String) (rest : List Char),
      writeString s ++ rest = '"' :: (s.toList.flatMap escapeChar ++ '"' :: rest) := by
    intro s rest
    rw [writeString, List.cons_append, List.append_assoc, List.singleton_append]
  rw [hbody, hbody] at h
  obtain ⟨hs, hrest⟩ := flatMap_escapeChar_inj (List.cons.inj h).2
  exact ⟨String.toList_inj.mp hs, hrest⟩

theorem isIntChar_of_mem_writeInt {n : ℤ} {c : Char} (h : c ∈ writeInt n) :
    isIntChar c = true := by
  have hdigit : ∀ {k : ℕ}, c ∈ Nat.toDigits 10 k → isIntChar c = true := fun hc => by
    rw [isIntChar, Nat.isDigit_of_mem_toDigits (by decide) (by decide) hc, Bool.true_or]
  cases n with
  | ofNat k => exact hdigit h
  | negSucc k =>
    rcases List.mem_cons.mp h with h | h
    · subst h
      decide
    · exact hdigit h

theorem writeInt_injective : Function.Injective writeInt := by
  -- a digit is never a minus sign
  have hminus : ∀ {k : ℕ} {rest : List Char}, Nat.toDigits 10 k ≠ '-' :: rest := by
    intro k rest h
    exact not_mem_toDigits (by decide) k (h ▸ List.mem_cons_self)
  intro n n' h
  cases n with
  | ofNat k =>
    cases n' with
    | ofNat k' => exact congrArg Int.ofNat (toDigits_ten_injective h)
    | negSucc k' => exact absurd h hminus
  | negSucc k =>
    cases n' with
    | ofNat k' => exact absurd h.symm hminus
    | negSucc k' =>
      have := toDigits_ten_injective (List.cons.inj h).2
      exact congrArg Int.negSucc (by omega)

section

variable {φ : Type}

/-- The sort of a document, numbers taken together. -/
def kind : JsonValue φ → ℕ
  | .null => 0
  | .bool _ => 1
  | .int _ => 2
  | .float _ => 2
  | .str _ => 3
  | .arr _ => 4
  | .obj _ => 5

/-- The sort of document a text can only be of, from its first character. -/
def kindOfHead (c : Char) : ℕ :=
  if c = 'n' then 0
  else if c = 't' ∨ c = 'f' then 1
  else if c = '"' then 3
  else if c = '[' then 4
  else if c = '{' then 5
  else if isNumberHead c = true then 2
  else 6

theorem kindOfHead_number {c : Char} (h : isNumberHead c = true) : kindOfHead c = 2 := by
  have hne : ∀ {c' : Char}, isNumberHead c' = false → c ≠ c' := fun h' he => by
    rw [he, h'] at h
    cases h
  rw [kindOfHead, if_neg (hne (by decide)),
    if_neg (not_or.mpr ⟨hne (by decide), hne (by decide)⟩), if_neg (hne (by decide)),
    if_neg (hne (by decide)), if_neg (hne (by decide)), if_pos h]

/-- A text that may follow a number without running into it. -/
def Closes (rest : List Char) : Prop := ∀ c, rest.head? = some c → isNumberChar c = false

theorem closes_cons {c : Char} (h : isNumberChar c = false) (rest : List Char) :
    Closes (c :: rest) := by
  intro c' hc
  rw [← Option.some.inj hc]
  exact h

theorem closes_nil : Closes [] := fun _ h => nomatch h

/-- A number is read up to the first character that cannot belong to it. -/
theorem number_append_inj {text text' rest rest' : List Char}
    (htext : ∀ c ∈ text, isNumberChar c = true) (htext' : ∀ c ∈ text', isNumberChar c = true)
    (hrest : Closes rest) (hrest' : Closes rest') (h : text ++ rest = text' ++ rest') :
    text = text' ∧ rest = rest' := by
  have hstop : ∀ {rest : List Char}, Closes rest → rest.takeWhile isNumberChar = [] := by
    intro rest hrest
    cases rest with
    | nil => rfl
    | cons c rest =>
      rw [List.takeWhile_cons_of_neg]
      rw [hrest c rfl]
      exact Bool.false_ne_true
  -- each text is what is kept of the whole
  have hread := congrArg (List.takeWhile isNumberChar) h
  rw [List.takeWhile_append_of_pos htext, List.takeWhile_append_of_pos htext', hstop hrest,
    hstop hrest', List.append_nil, List.append_nil] at hread
  subst hread
  exact ⟨rfl, List.append_cancel_left h⟩

theorem isNumberChar_of_isIntChar {c : Char} (h : isIntChar c = true) : isNumberChar c = true := by
  rw [isNumberChar, h, Bool.true_or]

variable (floats : FloatText φ) (separators : Separators)

/-- The first character of a text gives the sort of the document away. -/
theorem write_head (v : JsonValue φ) :
    ∃ c rest, write floats separators v = c :: rest ∧ kindOfHead c = kind v := by
  cases v with
  | null => exact ⟨_, _, write_null floats separators, rfl⟩
  | bool b => cases b <;> exact ⟨_, _, by rw [write_bool]; rfl, rfl⟩
  | int n =>
    have hhead : ∃ c rest, writeInt n = c :: rest := by
      cases n with
      | ofNat k => exact List.exists_cons_of_ne_nil Nat.toDigits_ne_nil
      | negSucc k => exact ⟨_, _, rfl⟩
    obtain ⟨c, rest, hwrite⟩ := hhead
    have hc : isIntChar c = true :=
      isIntChar_of_mem_writeInt (hwrite ▸ List.mem_cons_self)
    refine ⟨c, rest, by rw [write_int, hwrite], kindOfHead_number ?_⟩
    rw [isNumberHead, hc, Bool.true_or, Bool.true_or]
  | float x =>
    obtain ⟨c, rest, hrepr, hc⟩ := floats.head x
    exact ⟨c, rest, by rw [write_float, hrepr], kindOfHead_number hc⟩
  | str s => exact ⟨_, _, write_str floats separators s, rfl⟩
  | arr elems =>
    cases elems with
    | nil => exact ⟨_, _, write_arr_nil floats separators, rfl⟩
    | cons v rest => exact ⟨_, _, write_arr_cons floats separators v rest, rfl⟩
  | obj fields =>
    cases fields with
    | nil => exact ⟨_, _, write_obj_nil floats separators, rfl⟩
    | cons e rest => exact ⟨_, _, write_obj_cons floats separators e rest, rfl⟩

theorem kind_eq_of_write_append {v v' : JsonValue φ} {rest rest' : List Char}
    (h : write floats separators v ++ rest = write floats separators v' ++ rest') :
    kind v = kind v' := by
  obtain ⟨c, text, hv, hc⟩ := write_head floats separators v
  obtain ⟨c', text', hv', hc'⟩ := write_head floats separators v'
  rw [hv, hv'] at h
  rw [← hc, ← hc', (List.cons.inj h).1]

/-- Whatever follows it, the text of `v` is the text of no other document. -/
def Unambiguous (v : JsonValue φ) : Prop :=
  ∀ (v' : JsonValue φ) (rest rest' : List Char), Closes rest → Closes rest' →
    write floats separators v ++ rest = write floats separators v' ++ rest' →
      v = v' ∧ rest = rest'

theorem closes_writeElems (elems : List (JsonValue φ)) (rest : List Char) :
    Closes (writeElems floats separators elems ++ rest) := by
  cases elems with
  | nil => exact closes_cons (by decide) _
  | cons v elems =>
    obtain ⟨sep, hsep⟩ := separators.comma
    rw [writeElems_cons, hsep]
    exact closes_cons (by decide) _

theorem closes_writeFields (fields : List (String × JsonValue φ)) (rest : List Char) :
    Closes (writeFields floats separators fields ++ rest) := by
  cases fields with
  | nil => exact closes_cons (by decide) _
  | cons e fields =>
    obtain ⟨sep, hsep⟩ := separators.comma
    rw [writeFields_cons, hsep]
    exact closes_cons (by decide) _

theorem writeElems_append_inj {elems : List (JsonValue φ)}
    (hall : ∀ v ∈ elems, Unambiguous floats separators v) :
    ∀ {elems' : List (JsonValue φ)} {rest rest' : List Char},
      writeElems floats separators elems ++ rest = writeElems floats separators elems' ++ rest' →
        elems = elems' ∧ rest = rest' := by
  obtain ⟨sep, hsep⟩ := separators.comma
  induction elems with
  | nil =>
    intro elems' rest rest' h
    cases elems' with
    | nil => exact ⟨rfl, (List.cons.inj h).2⟩
    | cons v' elems' =>
      -- a bracket on one side, a comma on the other
      rw [writeElems_nil, writeElems_cons, hsep] at h
      exact absurd (List.cons.inj h).1 (by decide)
  | cons v elems ih =>
    intro elems' rest rest' h
    cases elems' with
    | nil =>
      rw [writeElems_cons, writeElems_nil, hsep] at h
      exact absurd (List.cons.inj h).1 (by decide)
    | cons v' elems' =>
      rw [writeElems_cons, writeElems_cons, List.append_assoc, List.append_assoc, List.append_assoc,
        List.append_assoc] at h
      -- both go on with a comma or a bracket, so the first elements end together
      obtain ⟨hv, htail⟩ := hall v List.mem_cons_self v' _ _
        (closes_writeElems floats separators elems rest)
        (closes_writeElems floats separators elems' rest') (List.append_cancel_left h)
      obtain ⟨helems, hrest⟩ := ih (fun w hw => hall w (List.mem_cons_of_mem _ hw)) htail
      exact ⟨by rw [hv, helems], hrest⟩

theorem writeFields_append_inj {fields : List (String × JsonValue φ)}
    (hall : ∀ e ∈ fields, Unambiguous floats separators e.2) :
    ∀ {fields' : List (String × JsonValue φ)} {rest rest' : List Char},
      writeFields floats separators fields ++ rest =
          writeFields floats separators fields' ++ rest' →
        fields = fields' ∧ rest = rest' := by
  obtain ⟨sep, hsep⟩ := separators.comma
  induction fields with
  | nil =>
    intro fields' rest rest' h
    cases fields' with
    | nil => exact ⟨rfl, (List.cons.inj h).2⟩
    | cons e' fields' =>
      rw [writeFields_nil, writeFields_cons, hsep] at h
      exact absurd (List.cons.inj h).1 (by decide)
  | cons e fields ih =>
    intro fields' rest rest' h
    cases fields' with
    | nil =>
      rw [writeFields_cons, writeFields_nil, hsep] at h
      exact absurd (List.cons.inj h).1 (by decide)
    | cons e' fields' =>
      rw [writeFields_cons, writeFields_cons] at h
      simp only [List.append_assoc] at h
      -- a key ends at its quote, and its value as elements do
      obtain ⟨hkey, hvalue⟩ := writeString_append_inj (List.append_cancel_left h)
      obtain ⟨hv, htail⟩ := hall e List.mem_cons_self e'.2 _ _
        (closes_writeFields floats separators fields rest)
        (closes_writeFields floats separators fields' rest') (List.append_cancel_left hvalue)
      obtain ⟨hfields, hrest⟩ := ih (fun w hw => hall w (List.mem_cons_of_mem _ hw)) htail
      exact ⟨List.cons_eq_cons.mpr ⟨Prod.ext hkey hv, hfields⟩, hrest⟩

theorem unambiguous_int (n : ℤ) : Unambiguous floats separators (.int n) := by
  intro v' rest rest' hrest hrest' h
  have hkind := kind_eq_of_write_append floats separators h
  have hint : ∀ {n : ℤ}, ∀ c ∈ writeInt n, isNumberChar c = true := fun c hc =>
    isNumberChar_of_isIntChar (isIntChar_of_mem_writeInt hc)
  cases v' with
  | int n' =>
    rw [write_int, write_int] at h
    obtain ⟨htext, hrest⟩ := number_append_inj hint hint hrest hrest' h
    exact ⟨congrArg JsonValue.int (writeInt_injective htext), hrest⟩
  | float x =>
    -- a float has a character that no integer has
    rw [write_int, write_float] at h
    obtain ⟨htext, -⟩ := number_append_inj hint (floats.chars x) hrest hrest' h
    obtain ⟨c, hc, hnot⟩ := floats.not_int x
    rw [← htext] at hc
    rw [isIntChar_of_mem_writeInt hc] at hnot
    cases hnot
  | _ => cases hkind

theorem unambiguous_float (x : φ) : Unambiguous floats separators (.float x) := by
  intro v' rest rest' hrest hrest' h
  have hkind := kind_eq_of_write_append floats separators h
  cases v' with
  | int n =>
    obtain ⟨heq, hrest⟩ := unambiguous_int floats separators n _ _ _ hrest' hrest h.symm
    exact ⟨heq.symm, hrest.symm⟩
  | float x' =>
    rw [write_float, write_float] at h
    obtain ⟨htext, hrest⟩ :=
      number_append_inj (floats.chars x) (floats.chars x') hrest hrest' h
    exact ⟨congrArg JsonValue.float (floats.injective htext), hrest⟩
  | _ => cases hkind

/-- No document starts with what closes one. -/
theorem write_append_ne {v : JsonValue φ} {text text' : List Char} {c : Char}
    (hc : kindOfHead c = 6) : write floats separators v ++ text ≠ c :: text' := by
  intro h
  obtain ⟨c', body, hv, hkind⟩ := write_head floats separators v
  rw [hv] at h
  rw [(List.cons.inj h).1, hc] at hkind
  cases v <;> cases hkind

theorem unambiguous_arr {elems : List (JsonValue φ)}
    (hall : ∀ v ∈ elems, Unambiguous floats separators v) :
    Unambiguous floats separators (.arr elems) := by
  intro v' rest rest' hrest hrest' h
  have hkind := kind_eq_of_write_append floats separators h
  cases v' with
  | arr elems' =>
    cases elems with
    | nil =>
      cases elems' with
      | nil => exact ⟨rfl, List.append_cancel_left h⟩
      | cons v' elems' =>
        rw [write_arr_nil, write_arr_cons] at h
        simp only [List.cons_append, List.append_assoc] at h
        exact absurd (List.cons.inj h).2.symm (write_append_ne floats separators (by decide))
    | cons v elems =>
      cases elems' with
      | nil =>
        rw [write_arr_cons, write_arr_nil] at h
        simp only [List.cons_append, List.append_assoc] at h
        exact absurd (List.cons.inj h).2 (write_append_ne floats separators (by decide))
      | cons v' elems' =>
        rw [write_arr_cons, write_arr_cons, List.cons_append, List.cons_append, List.append_assoc,
          List.append_assoc] at h
        obtain ⟨hv, htail⟩ := hall v List.mem_cons_self v' _ _
          (closes_writeElems floats separators elems rest)
          (closes_writeElems floats separators elems' rest') (List.cons.inj h).2
        obtain ⟨helems, hrest⟩ := writeElems_append_inj floats separators
          (fun w hw => hall w (List.mem_cons_of_mem _ hw)) htail
        exact ⟨by rw [hv, helems], hrest⟩
  | _ => cases hkind

theorem unambiguous_obj {fields : List (String × JsonValue φ)}
    (hall : ∀ e ∈ fields, Unambiguous floats separators e.2) :
    Unambiguous floats separators (.obj fields) := by
  intro v' rest rest' hrest hrest' h
  have hkind := kind_eq_of_write_append floats separators h
  cases v' with
  | obj fields' =>
    cases fields with
    | nil =>
      cases fields' with
      | nil => exact ⟨rfl, List.append_cancel_left h⟩
      | cons e' fields' =>
        rw [write_obj_nil, write_obj_cons] at h
        -- a bracket on one side, the quote of a key on the other
        exact absurd (List.cons.inj (List.cons.inj h).2).1 (by decide)
    | cons e fields =>
      cases fields' with
      | nil =>
        rw [write_obj_cons, write_obj_nil] at h
        exact absurd (List.cons.inj (List.cons.inj h).2).1 (by decide)
      | cons e' fields' =>
        rw [write_obj_cons, write_obj_cons] at h
        simp only [List.cons_append, List.append_assoc] at h
        obtain ⟨hkey, hvalue⟩ := writeString_append_inj (List.cons.inj h).2
        obtain ⟨hv, htail⟩ := hall e List.mem_cons_self e'.2 _ _
          (closes_writeFields floats separators fields rest)
          (closes_writeFields floats separators fields' rest') (List.append_cancel_left hvalue)
        obtain ⟨hfields, hrest⟩ := writeFields_append_inj floats separators
          (fun w hw => hall w (List.mem_cons_of_mem _ hw)) htail
        exact ⟨congrArg JsonValue.obj (List.cons_eq_cons.mpr ⟨Prod.ext hkey hv, hfields⟩), hrest⟩
  | _ => cases hkind

theorem unambiguous (v : JsonValue φ) : Unambiguous floats separators v := by
  induction v using JsonValue.induct with
  | null =>
    intro v' rest rest' _ _ h
    have hkind := kind_eq_of_write_append floats separators h
    cases v' <;> cases hkind
    exact ⟨rfl, List.append_cancel_left h⟩
  | bool b =>
    intro v' rest rest' _ _ h
    have hkind := kind_eq_of_write_append floats separators h
    cases v' with
    | bool b' =>
      cases b <;> cases b'
      · exact ⟨rfl, List.append_cancel_left h⟩
      · rw [write_bool, write_bool] at h
        exact absurd (List.cons.inj h).1 (by decide)
      · rw [write_bool, write_bool] at h
        exact absurd (List.cons.inj h).1 (by decide)
      · exact ⟨rfl, List.append_cancel_left h⟩
    | _ => cases hkind
  | int n => exact unambiguous_int floats separators n
  | float x => exact unambiguous_float floats separators x
  | str s =>
    intro v' rest rest' _ _ h
    have hkind := kind_eq_of_write_append floats separators h
    cases v' with
    | str s' =>
      rw [write_str, write_str] at h
      obtain ⟨hs, hrest⟩ := writeString_append_inj h
      exact ⟨congrArg JsonValue.str hs, hrest⟩
    | _ => cases hkind
  | arr elems ih => exact unambiguous_arr floats separators ih
  | obj fields ih => exact unambiguous_obj floats separators ih

/-- The text of a document determines it. -/
theorem write_injective : Function.Injective (write floats separators) := by
  intro v v' h
  exact (unambiguous floats separators v v' [] [] closes_nil closes_nil (by rw [h])).1

end

end JsonText
