import Mathlib
import RelayCheck.Language.Lexer

/-!
# What a text consists of

A text is read lexeme by lexeme. If all its tokens are words, which are punctuators and names, then
they are all of the text but the characters that carry no meaning. The tokens of a text do not
depend on where it stands.

The module introduces:

- `Lexer.significant`, a text without ignored characters and comments;
- `Lexer.ReadsAs`, the rules by which lexemes are read;
- `IsName`, the texts that names may have;
- `Lexer.kinds?`, the kinds of the tokens of a text.

The main results are `significant_of_kinds?`, which reads words back from their text, and
`kinds?_name`, which reads a name that is followed by anything else.
-/

namespace RelayCheck

/-- A computation that goes on with the result of another gives a result if both do. -/
theorem bind_eq_ok_iff {ε α β : Type} {first : Except ε α} {next : α → Except ε β} {result : β} :
    first >>= next = .ok result ↔ ∃ value, first = .ok value ∧ next value = .ok result := by
  cases first with
  | error fault => simp [bind, Except.bind]
  | ok value => simp [bind, Except.bind]

/-! ## Words -/

/-- The text of a name: a letter or underscore, then letters, underscores and digits. -/
def IsName (text : String) : Prop :=
  ∃ first more, text.toList = first :: more ∧ Lexer.isNameStart first = true ∧
    ∀ c ∈ more, Lexer.isNameContinue c = true

/-- How a token is written, if it is a word: a punctuator or a name. -/
def TokenKind.word? : TokenKind → Option String
  | punctuator p => some p.text
  | name text => some text
  | _ => none

/-- The token is one that a text can have: its name is one, and it is not the end of the text. -/
def TokenKind.IsRead : TokenKind → Prop
  | name text => IsName text
  | endOfInput => False
  | _ => True

namespace Lexer

/-! ## Characters that carry meaning -/

/-- The text without ignored characters, line ends and comments. A comment goes on to the end of its
line; whether the text starts inside of one is the first argument. -/
def significant : (comment : Bool) → List Char → List Char
  | _, [] => []
  | true, c :: rest => significant (!isLineEnd c) rest
  | false, c :: rest =>
    if c = '#' then significant true rest
    else if isIgnored c || isLineEnd c then significant false rest
    else c :: significant false rest

/-- The character carries meaning. -/
def IsSignificant (c : Char) : Prop :=
  c ≠ '#' ∧ isIgnored c = false ∧ isLineEnd c = false

instance : DecidablePred IsSignificant := fun _ => inferInstanceAs (Decidable (_ ∧ _))

/-- A comment is left out, and the end of its line with it. -/
theorem significant_comment (text : List Char) :
    significant true text =
      significant false (text.drop (text.takeWhile fun c => !isLineEnd c).length) := by
  induction text with
  | nil => rfl
  | cons c rest ih =>
    cases hend : isLineEnd c with
    | false => simp [significant, hend, ih]
    | true =>
      -- the end of the line is left out as such
      have hhash : c ≠ '#' := by
        rintro rfl
        cases hend
      simp [significant, hend, hhash]

/-- Characters that carry meaning are kept. -/
theorem significant_append {word : List Char} (hword : ∀ c ∈ word, IsSignificant c)
    (rest : List Char) : significant false (word ++ rest) = word ++ significant false rest := by
  induction word with
  | nil => rfl
  | cons c word ih =>
    obtain ⟨⟨hhash, hignored, hend⟩, hword⟩ := List.forall_mem_cons.mp hword
    simp [significant, hhash, hignored, hend, ih hword]

/-! ## Characters of names -/

/-- A letter is no digit. -/
theorem isDigit_of_isNameStart {c : Char} (h : isNameStart c = true) : c.isDigit = false := by
  rw [isNameStart, Bool.or_eq_true, beq_iff_eq] at h
  rcases h with halpha | rfl
  · -- the codes of letters are above those of digits
    simp only [Char.isAlpha, Char.isUpper, Char.isLower, Bool.or_eq_true, Bool.and_eq_true,
      decide_eq_true_eq, UInt32.le_iff_toNat_le, ge_iff_le] at halpha
    simp only [Char.isDigit, Bool.and_eq_false_iff, decide_eq_false_iff_not,
      UInt32.le_iff_toNat_le, ge_iff_le]
    simp at halpha ⊢
    omega
  · decide

/-- The first character of a name may also stand later. -/
theorem isNameContinue_of_isNameStart {c : Char} (h : isNameStart c = true) :
    isNameContinue c = true := by
  rw [isNameContinue, h, Bool.true_or]

/-- The characters of names carry meaning. -/
theorem isSignificant_of_isNameContinue {c : Char} (h : isNameContinue c = true) :
    IsSignificant c := by
  have hne {other : Char} (hother : isNameContinue other = false) : c ≠ other := by
    rintro rfl
    rw [h] at hother
    cases hother
  simp [IsSignificant, isIgnored, isLineEnd, hne (by decide : isNameContinue '#' = false),
    hne (by decide : isNameContinue ' ' = false), hne (by decide : isNameContinue '\t' = false),
    hne (by decide : isNameContinue ',' = false), hne (by decide : isNameContinue '\uFEFF' = false),
    hne (by decide : isNameContinue '\n' = false), hne (by decide : isNameContinue '\r' = false)]

/-- No punctuator is written with a character of names. -/
theorem ofChar?_of_isNameContinue {c : Char} (h : isNameContinue c = true) :
    Punctuator.ofChar? c = none := by
  unfold Punctuator.ofChar?
  split <;> first | rfl | cases h

/-- A punctuator that is written with one character is that character. -/
theorem text_of_ofChar? {c : Char} {p : Punctuator} (h : Punctuator.ofChar? c = some p) :
    p.text.toList = [c] ∧ IsSignificant c := by
  unfold Punctuator.ofChar? at h
  split at h <;> cases h <;> decide

/-! ## Lexemes -/

/-- The rules by which the lexeme that starts with `c` and goes on in `rest` is read. Of tokens that
are no words they only say that they are none. -/
inductive ReadsAs (c : Char) (rest : List Char) : Lexeme → Prop
  /-- An ignored character or a line feed stands alone. -/
  | ignored (hc : (isIgnored c || c == '\n') = true) : ReadsAs c rest ⟨0, none⟩
  /-- A carriage return takes a line feed after it along. -/
  | carriageReturn (hc : c = '\r') :
      ReadsAs c rest ⟨if rest.head? = some '\n' then 1 else 0, none⟩
  /-- A comment goes on to the end of the line. -/
  | comment (hc : c = '#') : ReadsAs c rest ⟨(rest.takeWhile fun c => !isLineEnd c).length, none⟩
  /-- A punctuator is one character. -/
  | punctuator {p : Punctuator} (hc : Punctuator.ofChar? c = some p) :
      ReadsAs c rest ⟨0, some (.punctuator p)⟩
  /-- A name goes on as long as it can. -/
  | name (hc : isNameStart c = true) :
      ReadsAs c rest ⟨(rest.takeWhile isNameContinue).length,
        some (.name (String.ofList (c :: rest.takeWhile isNameContinue)))⟩
  /-- One punctuator is three dots. -/
  | spread (hc : c = '.') (hrest : rest.take 2 = ['.', '.']) :
      ReadsAs c rest ⟨2, some (.punctuator .spread)⟩
  /-- Any other token is a number or a string. -/
  | other {extra : Nat} {kind : TokenKind} (hword : kind.word? = none) (hread : kind.IsRead) :
      ReadsAs c rest ⟨extra, some kind⟩

/-- A number is no word. -/
theorem readsAs_of_number {c : Char} {rest text : List Char} {lexeme : Lexeme}
    (h : number text = .ok lexeme) : ReadsAs c rest lexeme := by
  rw [number] at h
  obtain ⟨whole, -, h⟩ := bind_eq_ok_iff.mp h
  obtain ⟨fraction, -, h⟩ := bind_eq_ok_iff.mp h
  obtain ⟨exponent, -, h⟩ := bind_eq_ok_iff.mp h
  dsimp only at h
  -- another character of a number or name may not follow
  split at h
  · cases h
  · cases h
    split
    · exact .other rfl trivial
    · exact .other rfl trivial

/-- Lexemes are read by the rules. -/
theorem readsAs_of_lexemeAt {c : Char} {rest : List Char} {lexeme : Lexeme}
    (h : lexemeAt c rest = .ok lexeme) : ReadsAs c rest lexeme := by
  rw [lexemeAt] at h
  split at h
  next hc =>
    cases h
    exact .ignored hc
  split at h
  next hc =>
    cases h
    exact .carriageReturn hc
  split at h
  next hc =>
    cases h
    exact .comment hc
  split at h
  next p hp =>
    cases h
    exact .punctuator hp
  split at h
  next => exact readsAs_of_number h
  split at h
  next hc =>
    cases h
    exact .name hc
  split at h
  next hc =>
    cases h
    exact .spread hc.1 hc.2
  split at h
  next =>
    -- strings, with one mark or with three
    split at h
    next =>
      obtain ⟨⟨lines, width⟩, -, h⟩ := bind_eq_ok_iff.mp h
      cases h
      exact .other rfl trivial
    next =>
      obtain ⟨⟨content, width⟩, -, h⟩ := bind_eq_ok_iff.mp h
      cases h
      exact .other rfl trivial
  split at h
  next => cases h
  next => cases h

/-! ## What lexemes are made of -/

section Text

variable {c : Char} {rest : List Char} {lexeme : Lexeme} {kind : TokenKind} {word : String}

/-- A lexeme that is no token carries no meaning. -/
theorem significant_of_ignored (h : ReadsAs c rest lexeme) (htoken : lexeme.token = none) :
    significant false (c :: rest) = significant false (rest.drop lexeme.extra) := by
  cases h with
  | ignored hc =>
    have hhash : c ≠ '#' := by
      rintro rfl
      cases hc
    have hleft : (isIgnored c || isLineEnd c) = true := by
      rw [isLineEnd, ← Bool.or_assoc, hc, Bool.true_or]
    simp [significant, hhash, hleft]
  | carriageReturn hc =>
    subst hc
    split
    next hfeed =>
      -- the line feed that goes along is left out as well
      obtain ⟨more, rfl⟩ : ∃ more, rest = '\n' :: more := by
        cases rest with
        | nil => cases hfeed
        | cons first more =>
          cases hfeed
          exact ⟨more, rfl⟩
      rfl
    next => rfl
  | comment hc =>
    subst hc
    exact significant_comment rest
  | punctuator | name | spread | other => cases htoken

/-- A lexeme that is a word leaves what follows it. -/
theorem significant_of_word (h : ReadsAs c rest lexeme) (htoken : lexeme.token = some kind)
    (hword : kind.word? = some word) :
    significant false (c :: rest) = word.toList ++ significant false (rest.drop lexeme.extra) := by
  cases h with
  | ignored | carriageReturn | comment => cases htoken
  | punctuator hc =>
    cases htoken
    cases hword
    obtain ⟨htext, hsignificant⟩ := text_of_ofChar? hc
    rw [htext]
    exact significant_append (List.forall_mem_singleton.mpr hsignificant) rest
  | name hc =>
    cases htoken
    cases hword
    -- all of a name counts, and it goes on for as long as it can
    have hall : ∀ d ∈ c :: rest.takeWhile isNameContinue, IsSignificant d := by
      refine List.forall_mem_cons.mpr ⟨?_, fun d hd => ?_⟩
      · exact isSignificant_of_isNameContinue (isNameContinue_of_isNameStart hc)
      · exact isSignificant_of_isNameContinue (List.mem_takeWhile_imp hd)
    have hsplit : rest.takeWhile isNameContinue ++
        rest.drop (rest.takeWhile isNameContinue).length = rest :=
      List.prefix_iff_eq_append.mp (List.takeWhile_prefix _)
    rw [String.toList_ofList, ← significant_append hall, List.cons_append, hsplit]
  | spread hc hrest =>
    cases htoken
    cases hword
    subst hc
    have hdots : '.' :: rest = ['.', '.', '.'] ++ rest.drop 2 := by
      rw [← List.take_append_drop 2 rest, hrest]
      rfl
    have hall : ∀ d ∈ List.replicate 3 '.', IsSignificant d := by
      intro d hd
      rw [List.eq_of_mem_replicate hd]
      decide
    rw [hdots]
    exact significant_append hall _
  | other hnone hread =>
    cases htoken
    rw [hnone] at hword
    cases hword

/-- A lexeme that is a token is one that a text can have. -/
theorem isRead_of_readsAs (h : ReadsAs c rest lexeme) (htoken : lexeme.token = some kind) :
    kind.IsRead := by
  cases h <;> cases htoken
  case punctuator hc => trivial
  case name hc =>
    exact ⟨c, _, String.toList_ofList, hc, fun d hd => List.mem_takeWhile_imp hd⟩
  case spread hc hrest => trivial
  case other hword hread => exact hread

end Text

end Lexer

/-! ## The tokens of a text -/

namespace TokenStream

/-- The kinds of the tokens, if the text can be read to its end. -/
def kinds? : TokenStream → Option (List TokenKind)
  | done _ => some []
  | broken _ => none
  | more token rest => rest.kinds?.map (token.kind :: ·)

/-- Lexemes that are no tokens are passed over, the others come first. -/
theorem kinds?_ofChars_cons {c : Char} {rest : List Char} {lexeme : Lexer.Lexeme}
    (h : Lexer.lexemeAt c rest = .ok lexeme) (pos : Position) :
    (ofChars (c :: rest) pos).kinds? =
      (ofChars (rest.drop lexeme.extra) (pos.after (c :: rest.take lexeme.extra))).kinds?.map
        (lexeme.token.toList ++ ·) := by
  simp only [ofChars, h]
  cases lexeme.token with
  | none => simp
  | some kind => rfl

/-- All tokens are ones that a text can have. -/
def IsRead : TokenStream → Prop
  | done _ => True
  | broken _ => True
  | more token rest => token.kind.IsRead ∧ rest.IsRead

/-- The tokens of a text are ones that a text can have. -/
theorem isRead_ofChars (text : List Char) (pos : Position) : (ofChars text pos).IsRead := by
  fun_induction ofChars text pos with
  | case1 pos => trivial
  | case2 => trivial
  | case3 c rest pos lexeme hlexeme next htoken ih => exact ih
  | case4 c rest pos lexeme hlexeme next kind htoken ih =>
    exact ⟨Lexer.isRead_of_readsAs (Lexer.readsAs_of_lexemeAt hlexeme) htoken, ih⟩

/-- What can be read to its end starts with a token, or with its end. -/
theorem exists_head {stream : TokenStream} {kinds : List TokenKind}
    (h : stream.kinds? = some kinds) : ∃ token, stream.head = .ok token := by
  cases stream with
  | broken error => cases h
  | done pos => exact ⟨_, rfl⟩
  | more token rest => exact ⟨token, rfl⟩

/-- What can be read to its end holds tokens that a text can have. -/
theorem isRead_of_kinds? {stream : TokenStream} {kinds : List TokenKind} (h : stream.IsRead)
    (hkinds : stream.kinds? = some kinds) : ∀ kind ∈ kinds, kind.IsRead := by
  induction stream generalizing kinds with
  | done pos =>
    cases hkinds
    exact fun kind hkind => nomatch hkind
  | broken error => cases hkinds
  | more token rest ih =>
    obtain ⟨later, hlater, rfl⟩ := Option.map_eq_some_iff.mp hkinds
    exact List.forall_mem_cons.mpr ⟨h.1, ih h.2 hlater⟩

end TokenStream

namespace Lexer

/-- The kinds of the tokens of a text, if it can be read to its end. -/
def kinds? (text : List Char) : Option (List TokenKind) :=
  (TokenStream.ofChars text Position.start).kinds?

/-- The empty text has no tokens. -/
@[simp]
theorem kinds?_nil : kinds? [] = some [] := by
  rw [kinds?, TokenStream.ofChars]
  rfl

/-- The tokens of a text do not depend on where it stands. -/
theorem kinds?_ofChars (text : List Char) (pos : Position) :
    (TokenStream.ofChars text pos).kinds? = kinds? text := by
  -- the position is passed on from lexeme to lexeme, and never looked at
  suffices h : ∀ other, (TokenStream.ofChars text pos).kinds? =
      (TokenStream.ofChars text other).kinds? from h _
  fun_induction TokenStream.ofChars text pos with
  | case1 pos =>
    intro other
    rw [TokenStream.ofChars]
    rfl
  | case2 c rest pos fault hfault =>
    intro other
    rw [TokenStream.ofChars, hfault]
    rfl
  | case3 c rest pos lexeme hlexeme next htoken ih =>
    intro other
    simp [TokenStream.kinds?_ofChars_cons hlexeme, htoken, next, ← ih]
  | case4 c rest pos lexeme hlexeme next kind htoken ih =>
    intro other
    simp [TokenStream.kinds?_ofChars_cons hlexeme, htoken, next, ← ih, TokenStream.kinds?]

/-- The tokens of a text are those of its first lexeme and those after it. -/
theorem kinds?_cons {c : Char} {rest : List Char} {lexeme : Lexeme}
    (h : lexemeAt c rest = .ok lexeme) :
    kinds? (c :: rest) = (kinds? (rest.drop lexeme.extra)).map (lexeme.token.toList ++ ·) := by
  rw [kinds?, TokenStream.kinds?_ofChars_cons h, kinds?_ofChars]

/-- If the tokens of a text are words, these are the characters of it that carry meaning. -/
theorem significant_of_kinds? {text : List Char} {kinds : List TokenKind}
    (h : kinds? text = some kinds) (hwords : ∀ kind ∈ kinds, kind.word?.isSome = true) :
    significant false text = (kinds.filterMap TokenKind.word?).flatMap String.toList := by
  -- lexeme by lexeme, from any place on: tokens give the next word, other lexemes give nothing
  suffices hall : ∀ pos kinds, (TokenStream.ofChars text pos).kinds? = some kinds →
      (∀ kind ∈ kinds, kind.word?.isSome = true) →
      significant false text = (kinds.filterMap TokenKind.word?).flatMap String.toList from
    hall _ _ h hwords
  clear h hwords
  intro pos
  fun_induction TokenStream.ofChars text pos with
  | case1 pos =>
    intro kinds h hwords
    cases h
    rfl
  | case2 c rest pos fault hfault =>
    intro kinds h
    cases h
  | case3 c rest pos lexeme hlexeme next htoken ih =>
    intro kinds h hwords
    rw [significant_of_ignored (readsAs_of_lexemeAt hlexeme) htoken]
    exact ih _ h hwords
  | case4 c rest pos lexeme hlexeme next kind htoken ih =>
    intro kinds h hwords
    obtain ⟨later, hlater, rfl⟩ := Option.map_eq_some_iff.mp h
    obtain ⟨hword, hwords⟩ := List.forall_mem_cons.mp hwords
    obtain ⟨word, hword⟩ := Option.isSome_iff_exists.mp hword
    rw [significant_of_word (readsAs_of_lexemeAt hlexeme) htoken hword, ih _ hlater hwords,
      List.filterMap_cons_some hword, List.flatMap_cons]

/-! ## Reading words -/

/-- A punctuator of one character stands alone. -/
theorem kinds?_punctuator {c : Char} {p : Punctuator} (h : Punctuator.ofChar? c = some p)
    (rest : List Char) : kinds? (c :: rest) = (kinds? rest).map (.punctuator p :: ·) := by
  obtain ⟨-, hhash, hignored, hend⟩ := text_of_ofChar? h
  rw [isLineEnd, Bool.or_eq_false_iff, beq_eq_false_iff_ne, beq_eq_false_iff_ne] at hend
  have hlexeme : lexemeAt c rest = .ok ⟨0, some (.punctuator p)⟩ := by
    simp [lexemeAt, hignored, hend, hhash, h]
  rw [kinds?_cons hlexeme]
  rfl

/-- A name ends where something else starts. -/
theorem kinds?_name {text : String} (htext : IsName text) {rest : List Char}
    (hrest : ∀ c ∈ rest.head?, isNameContinue c = false) :
    kinds? (text.toList ++ rest) = (kinds? rest).map (.name text :: ·) := by
  obtain ⟨first, more, hsplit, hfirst, hmore⟩ := htext
  -- the name is read up to the first character that does not continue one
  have htake : (more ++ rest).takeWhile isNameContinue = more := by
    rw [List.takeWhile_append_of_pos hmore]
    cases rest with
    | nil => simp
    | cons c rest => simp [hrest c rfl]
  obtain ⟨hhash, hignored, hend⟩ :=
    isSignificant_of_isNameContinue (isNameContinue_of_isNameStart hfirst)
  rw [isLineEnd, Bool.or_eq_false_iff, beq_eq_false_iff_ne, beq_eq_false_iff_ne] at hend
  have hminus : first ≠ '-' := by
    rintro rfl
    cases hfirst
  have hlexeme : lexemeAt first (more ++ rest) = .ok ⟨more.length, some (.name text)⟩ := by
    rw [← String.ofList_toList (s := text), hsplit]
    simp [lexemeAt, hignored, hend, hhash,
      ofChar?_of_isNameContinue (isNameContinue_of_isNameStart hfirst),
      isDigit_of_isNameStart hfirst, hminus, hfirst, htake]
  rw [hsplit, List.cons_append, kinds?_cons hlexeme, List.drop_left]
  rfl

end Lexer

end RelayCheck
