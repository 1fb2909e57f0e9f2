import RelayCheck.Language.Parser.Values
import RelayCheck.Proofs.Language.Lexemes

/-!
# Types and their texts

A type is read from a text token by token, and a text that can be read is spelled by its tokens
alone. So printing a type and reading types are inverse to each other, up to characters that carry
no meaning.

The module introduces:

- `TypeRef.tokens`, the tokens that spell a type;
- `TypeRef.Spellable`, the types that have a text;
- `TokenStream.Starts`, what a parser has taken from a stream;
- `Parser.Takes`, the parsers that take a type where it is spelled.

The main result is `parse_render_and_render_parse`.
-/

namespace RelayCheck

/-! ## The tokens of a type -/

namespace TypeRef

/-- The tokens that spell a type. -/
def tokens : TypeRef String → List TokenKind
  | named name => [.name name]
  | list item => .punctuator .bracketL :: (item.tokens ++ [.punctuator .bracketR])
  | nonNull inner => inner.tokens ++ [.punctuator .bang]

/-- The type has a text: its innermost name can be one, no non-null layer is directly inside
another, and lists are not nested beyond the limit. -/
structure Spellable (type : TypeRef String) : Prop where
  /-- The innermost name can be written. -/
  isName : IsName type.baseName
  /-- Between two exclusions of null there is a list. -/
  wellFormed : type.WellFormed
  /-- The lists are not too deep. -/
  listDepth_le : type.listDepth ≤ Parser.maxNesting

/-- Renaming keeps the nesting of lists. -/
@[simp]
theorem listDepth_map {α β : Type} (f : α → β) (type : TypeRef α) :
    (type.map f).listDepth = type.listDepth := by
  induction type with
  | named name => rfl
  | list item ih => exact congrArg (· + 1) ih
  | nonNull inner ih => exact ih

/-- Types are spelled with words. -/
theorem isSome_word?_of_mem_tokens {type : TypeRef String} :
    ∀ kind ∈ type.tokens, kind.word?.isSome = true := by
  induction type with
  | named name => simp [tokens, TokenKind.word?]
  | list item ih => simpa [tokens, TokenKind.word?, or_imp, forall_and] using ih
  | nonNull inner ih => simpa [tokens, TokenKind.word?, or_imp, forall_and] using ih

/-- The words that spell a type are its text. -/
theorem flatMap_tokens (type : TypeRef String) :
    (type.tokens.filterMap TokenKind.word?).flatMap String.toList = type.render.toList := by
  induction type with
  | named name => simp [tokens, TokenKind.word?, render]
  | list item ih => simp [tokens, TokenKind.word?, render, ih, Punctuator.text]
  | nonNull inner ih => simp [tokens, TokenKind.word?, render, ih, Punctuator.text]

/-- The innermost name is among the tokens. -/
theorem name_mem_tokens (type : TypeRef String) : .name type.baseName ∈ type.tokens := by
  induction type with
  | named name => exact List.mem_singleton_self _
  | list item ih => exact List.mem_cons_of_mem _ (List.mem_append_left _ ih)
  | nonNull inner ih => exact List.mem_append_left _ ih

/-- The text of a type is read as the tokens that spell it, whatever follows that is not part of the
last name. -/
theorem kinds?_render {type : TypeRef String} (hname : IsName type.baseName) {rest : List Char}
    (hrest : ∀ c ∈ rest.head?, Lexer.isNameContinue c = false) :
    Lexer.kinds? (type.render.toList ++ rest) =
      (Lexer.kinds? rest).map (type.tokens ++ ·) := by
  induction type generalizing rest with
  | named name => exact Lexer.kinds?_name hname hrest
  | list item ih =>
    -- the closing bracket ends the name inside
    have hbracket : ∀ c ∈ (']' :: rest).head?, Lexer.isNameContinue c = false := by
      rintro _ ⟨⟩
      decide
    have hopen := Lexer.kinds?_punctuator (c := '[') (p := .bracketL) rfl
      (item.render.toList ++ ']' :: rest)
    have hclose := Lexer.kinds?_punctuator (c := ']') (p := .bracketR) rfl rest
    rw [ih hname hbracket, hclose] at hopen
    simpa [render, tokens, Function.comp_def] using hopen
  | nonNull inner ih =>
    have hbang : ∀ c ∈ ('!' :: rest).head?, Lexer.isNameContinue c = false := by
      rintro _ ⟨⟩
      decide
    have hinner := ih hname hbang
    rw [Lexer.kinds?_punctuator (c := '!') (p := .bang) rfl rest] at hinner
    simpa [render, tokens, Function.comp_def] using hinner

end TypeRef

/-! ## What parsers take -/

namespace TokenStream

/-- The first stream starts with tokens of these kinds, and the second is what follows them. -/
inductive Starts : TokenStream → List TokenKind → TokenStream → Prop
  | nil (stream : TokenStream) : Starts stream [] stream
  | cons (token : Token) {stream rest : TokenStream} {kinds : List TokenKind}
      (h : Starts stream kinds rest) : Starts (more token stream) (token.kind :: kinds) rest

namespace Starts

variable {stream middle rest : TokenStream} {kinds later : List TokenKind}

/-- What is taken in two steps is taken one after the other. -/
theorem append (h : stream.Starts kinds middle) (hlater : middle.Starts later rest) :
    stream.Starts (kinds ++ later) rest := by
  induction h with
  | nil stream => exact hlater
  | cons token h ih => exact .cons token (ih hlater)

/-- The tokens of a stream are those that were taken and those that are left. -/
theorem kinds?_eq (h : stream.Starts kinds rest) : stream.kinds? = rest.kinds?.map (kinds ++ ·) := by
  induction h with
  | nil stream => simp
  | cons token h ih => simp [kinds?, ih, Function.comp_def]

/-- What is left of a stream that was read from a text was read from it as well. -/
theorem isRead (h : stream.Starts kinds rest) (hread : stream.IsRead) : rest.IsRead := by
  induction h with
  | nil stream => exact hread
  | cons token h ih => exact ih hread.2

end Starts

end TokenStream

namespace Parser

section Soundness

variable {α β : Type} {stream rest : TokenStream}

/-- One parser after another gives a result if both do. -/
theorem bind_ok_iff {first : Parser α} {next : α → Parser β} {result : β × TokenStream} :
    (first >>= next) stream = .ok result ↔
      ∃ value middle, first stream = .ok (value, middle) ∧ next value middle = .ok result := by
  show (first stream >>= fun taken => next taken.1 taken.2) = .ok result ↔ _
  rw [bind_eq_ok_iff, Prod.exists]

/-- A parser that looks at the current token first takes nothing by that. -/
theorem current_bind_ok_iff {next : Token → Parser β} {result : β × TokenStream} :
    (current >>= next) stream = .ok result ↔
      ∃ token, stream.head = .ok token ∧ next token stream = .ok result := by
  rw [bind_ok_iff]
  constructor
  · rintro ⟨token, middle, hcurrent, hnext⟩
    obtain ⟨seen, hseen, h⟩ := bind_eq_ok_iff.mp hcurrent
    cases h
    exact ⟨token, hseen, hnext⟩
  · rintro ⟨token, hhead, hnext⟩
    exact ⟨token, stream, bind_eq_ok_iff.mpr ⟨token, hhead, rfl⟩, hnext⟩

/-- Where something else is expected, nothing is read. -/
theorem expected_ne_ok {what : Expected} {result : α × TokenStream} :
    expected what stream ≠ .ok result := by
  intro h
  obtain ⟨token, -, hfail⟩ := current_bind_ok_iff.mp h
  cases hfail

/-- To give a value after passing over a token takes the token. -/
theorem starts_of_advance {token : Token} {kind : TokenKind} {value read : α}
    (hhead : stream.head = .ok token) (hkind : token.kind = kind) (hend : kind ≠ .endOfInput)
    (h : (do advance; return value : Parser α) stream = .ok (read, rest)) :
    read = value ∧ stream.Starts [kind] rest := by
  subst hkind
  obtain ⟨passed, middle, hadvance, hdone⟩ := bind_ok_iff.mp h
  cases hdone
  obtain ⟨left, hleft, hpassed⟩ := bind_eq_ok_iff.mp hadvance
  cases hpassed
  refine ⟨rfl, ?_⟩
  cases stream with
  | done pos =>
    -- at the end of the source no token is left to be taken
    cases hhead
    exact absurd rfl hend
  | broken fault => cases hhead
  | more first later =>
    cases hhead
    cases later <;> cases hleft <;> exact .cons token (.nil _)

/-- A punctuator that was looked for is taken if it was there. -/
theorem starts_of_accept {p : Punctuator} {taken : Bool}
    (h : accept p stream = .ok (taken, rest)) :
    stream.Starts (if taken then [.punctuator p] else []) rest := by
  obtain ⟨seen, middle, hsees, hrest⟩ := bind_ok_iff.mp h
  obtain ⟨token, hhead, hseen⟩ := current_bind_ok_iff.mp hsees
  cases hseen
  split at hrest
  next hkind =>
    obtain ⟨rfl, hstarts⟩ := starts_of_advance hhead (beq_iff_eq.mp hkind) nofun hrest
    exact hstarts
  next =>
    cases hrest
    exact .nil stream

/-- A punctuator that was asked for is taken. -/
theorem starts_of_expect {p : Punctuator} {pos : Position} (h : expect p stream = .ok (pos, rest)) :
    stream.Starts [.punctuator p] rest := by
  obtain ⟨token, hhead, hrest⟩ := current_bind_ok_iff.mp h
  split at hrest
  next hkind => exact (starts_of_advance hhead (beq_iff_eq.mp hkind) nofun hrest).2
  next => exact absurd hrest expected_ne_ok

/-- A name is taken. -/
theorem starts_of_name {read : Name} (h : name stream = .ok (read, rest)) :
    stream.Starts [.name read.text] rest := by
  obtain ⟨⟨kind, pos⟩, hhead, hrest⟩ := current_bind_ok_iff.mp h
  cases kind with
  | name text =>
    obtain ⟨rfl, hstarts⟩ := starts_of_advance hhead rfl nofun hrest
    exact hstarts
  | punctuator | int | float | string | blockString | endOfInput =>
    exact absurd hrest expected_ne_ok

/-- Nothing is left where the end of the source was asked for. -/
theorem kinds?_of_endOfInput {done : Unit} (hread : stream.IsRead)
    (h : endOfInput stream = .ok (done, rest)) : stream.kinds? = some [] := by
  obtain ⟨token, hhead, hrest⟩ := current_bind_ok_iff.mp h
  split at hrest
  next hkind =>
    rw [beq_iff_eq] at hkind
    cases stream with
    | done pos => rfl
    | broken fault => cases hhead
    | more first later =>
      -- no token of a text is its end
      cases hhead
      exact absurd hread.1 (by rw [hkind]; exact id)
  next => exact absurd hrest expected_ne_ok

end Soundness

/-- Take a name or a bracketed type. -/
def bareType (room : Nat) : Parser (TypeRef Name) := do
  if ← accept .bracketL then
    match room with
    | 0 => fail .nestedTooDeeply
    | room + 1 => do
      let item ← typeRef room
      discard (expect .bracketR)
      return .list item
  else return .named (← name)

/-- A type is a bare one, and a bang possibly. -/
theorem typeRef_eq (room : Nat) :
    typeRef room = (do
      let base ← bareType room
      if ← accept .bang then return .nonNull base else return base) := by
  rw [typeRef.eq_def, bareType.eq_def, bind_assoc]
  congr 1
  funext taken
  cases taken with
  | false => simp
  | true =>
    cases room with
    | zero => rfl
    | succ room => simp

/-- What is taken as a bare type spells it, if this is so for types with one level less. -/
theorem starts_of_bareType {room : Nat} {stream rest : TokenStream} {read : TypeRef Name}
    (hitem : ∀ lower stream rest item, lower < room → typeRef lower stream = .ok (item, rest) →
      stream.Starts (item.map Name.text).tokens rest ∧ item.WellFormed ∧ item.listDepth ≤ lower)
    (h : bareType room stream = .ok (read, rest)) :
    stream.Starts (read.map Name.text).tokens rest ∧ read.isNonNull = false ∧
      read.WellFormed ∧ read.listDepth ≤ room := by
  rw [bareType.eq_def] at h
  obtain ⟨opened, middle, haccept, hrest⟩ := bind_ok_iff.mp h
  have hopen := starts_of_accept haccept
  cases opened with
  | false =>
    -- without a bracket there is a name
    obtain ⟨text, left, hname, hdone⟩ := bind_ok_iff.mp hrest
    cases hdone
    exact ⟨hopen.append (starts_of_name hname), rfl, trivial, Nat.zero_le _⟩
  | true =>
    cases room with
    | zero =>
      obtain ⟨found, -, hfail⟩ := current_bind_ok_iff.mp hrest
      cases hfail
    | succ room =>
      -- an item, for which there is one level less, and the closing bracket
      obtain ⟨item, left, hread, hclose⟩ := bind_ok_iff.mp hrest
      obtain ⟨closed, last, hdiscard, hdone⟩ := bind_ok_iff.mp hclose
      obtain ⟨⟨pos, final⟩, hexpect, hunit⟩ := bind_eq_ok_iff.mp hdiscard
      cases hunit
      cases hdone
      obtain ⟨hstarts, hform, hdepth⟩ := hitem room _ _ _ (Nat.lt_succ_self room) hread
      exact ⟨hopen.append (hstarts.append (starts_of_expect hexpect)), rfl, hform,
        Nat.succ_le_succ hdepth⟩

/-- What is taken as a type spells it, and no more lists are nested than there was room for. -/
theorem starts_of_typeRef {room : Nat} {stream rest : TokenStream} {read : TypeRef Name}
    (h : typeRef room stream = .ok (read, rest)) :
    stream.Starts (read.map Name.text).tokens rest ∧ read.WellFormed ∧ read.listDepth ≤ room := by
  induction room using Nat.strongRecOn generalizing stream rest read with
  | ind room ih =>
    rw [typeRef_eq] at h
    obtain ⟨base, middle, hbare, hrest⟩ := bind_ok_iff.mp h
    obtain ⟨taken, left, haccept, hdone⟩ := bind_ok_iff.mp hrest
    obtain ⟨hstarts, hnullable, hform, hdepth⟩ :=
      starts_of_bareType (fun lower _ _ _ hlower => ih lower hlower) hbare
    have hbang := hstarts.append (starts_of_accept haccept)
    cases taken with
    | false =>
      cases hdone
      rw [if_neg Bool.false_ne_true, List.append_nil] at hbang
      exact ⟨hbang, hform, hdepth⟩
    | true =>
      -- what the bang is put on is a bare type, which does not end with another bang
      cases hdone
      exact ⟨hbang, ⟨hnullable, hform⟩, hdepth⟩

/-! ### What is taken where it stands -/

section Completeness

variable {stream : TokenStream} {kinds : List TokenKind}

/-- A stream with a first token has that token at its head, and can be read on after it. -/
theorem exists_advance {kind : TokenKind} (h : stream.kinds? = some (kind :: kinds)) :
    ∃ pos rest, stream.head = .ok ⟨kind, pos⟩ ∧ advance stream = .ok ((), rest) ∧
      rest.kinds? = some kinds := by
  cases stream with
  | done pos => cases h
  | broken fault => cases h
  | more first rest =>
    obtain ⟨later, hlater, hcons⟩ := Option.map_eq_some_iff.mp h
    obtain ⟨rfl, rfl⟩ := List.cons.inj hcons
    refine ⟨first.pos, rest, rfl, ?_, hlater⟩
    cases rest with
    | broken fault => cases hlater
    | done | more => rfl

/-- A punctuator that comes next is accepted. -/
theorem exists_accept {p : Punctuator} (h : stream.kinds? = some (.punctuator p :: kinds)) :
    ∃ rest, accept p stream = .ok (true, rest) ∧ rest.kinds? = some kinds := by
  obtain ⟨pos, rest, hhead, hadvance, hrest⟩ := exists_advance h
  have hsees : sees p stream = .ok (true, stream) := by
    refine current_bind_ok_iff.mpr ⟨_, hhead, ?_⟩
    rw [beq_self_eq_true]
    rfl
  refine ⟨rest, bind_ok_iff.mpr ⟨true, stream, hsees, ?_⟩, hrest⟩
  exact bind_ok_iff.mpr ⟨(), rest, hadvance, rfl⟩

/-- Where something else comes next, nothing is taken. -/
theorem accept_eq_false {p : Punctuator} (h : stream.kinds? = some kinds)
    (hnext : kinds.head? ≠ some (.punctuator p)) : accept p stream = .ok (false, stream) := by
  have hsees : sees p stream = .ok (false, stream) := by
    cases stream with
    | done pos => rfl
    | broken fault => cases h
    | more first rest =>
      obtain ⟨later, -, rfl⟩ := Option.map_eq_some_iff.mp h
      refine current_bind_ok_iff.mpr ⟨first, rfl, ?_⟩
      have hkind : (first.kind == .punctuator p) = false :=
        beq_eq_false_iff_ne.mpr fun hkind => hnext (congrArg some hkind)
      rw [hkind]
      rfl
  exact bind_ok_iff.mpr ⟨false, stream, hsees, rfl⟩

/-- A punctuator that comes next can be asked for. -/
theorem exists_expect {p : Punctuator} (h : stream.kinds? = some (.punctuator p :: kinds)) :
    ∃ pos rest, expect p stream = .ok (pos, rest) ∧ rest.kinds? = some kinds := by
  obtain ⟨pos, rest, hhead, hadvance, hrest⟩ := exists_advance h
  refine ⟨pos, rest, current_bind_ok_iff.mpr ⟨_, hhead, ?_⟩, hrest⟩
  rw [if_pos (beq_self_eq_true _)]
  exact bind_ok_iff.mpr ⟨(), rest, hadvance, rfl⟩

/-- A name that comes next is read. -/
theorem exists_name {text : String} (h : stream.kinds? = some (.name text :: kinds)) :
    ∃ pos rest, name stream = .ok (⟨text, pos⟩, rest) ∧ rest.kinds? = some kinds := by
  obtain ⟨pos, rest, hhead, hadvance, hrest⟩ := exists_advance h
  refine ⟨pos, rest, current_bind_ok_iff.mpr ⟨_, hhead, ?_⟩, hrest⟩
  exact bind_ok_iff.mpr ⟨(), rest, hadvance, rfl⟩

/-- The end of a source can be asked for. -/
theorem exists_endOfInput (h : stream.kinds? = some []) :
    ∃ rest, endOfInput stream = .ok ((), rest) := by
  cases stream with
  | done pos => exact ⟨.done pos, rfl⟩
  | broken fault => cases h
  | more first rest =>
    obtain ⟨later, -, hcons⟩ := Option.map_eq_some_iff.mp h
    cases hcons

end Completeness

/-- Where the tokens of the type stand before these, the parser takes the type. -/
def Takes (parser : Parser (TypeRef Name)) (type : TypeRef String) (kinds : List TokenKind) :
    Prop :=
  ∀ stream : TokenStream, stream.kinds? = some (type.tokens ++ kinds) →
    ∃ read rest, parser stream = .ok (read, rest) ∧ read.map Name.text = type ∧
      rest.kinds? = some kinds

/-- A type is taken where no bang follows, if its nullable form is taken as a bare one. -/
theorem takes_typeRef {type : TypeRef String} {room : Nat} {kinds : List TokenKind}
    (hbare : ∀ kinds, (bareType room).Takes type.nullable kinds)
    (hnext : kinds.head? ≠ some (.punctuator .bang)) : (typeRef room).Takes type kinds := by
  intro stream hstream
  rw [typeRef_eq]
  -- the mark of a required type is read if it is there, and nothing that follows is taken for it
  cases type with
  | nonNull inner =>
    rw [TypeRef.tokens, List.append_assoc] at hstream
    obtain ⟨base, middle, hbase, rfl, hmiddle⟩ := hbare _ stream hstream
    obtain ⟨rest, haccept, hrest⟩ := exists_accept hmiddle
    refine ⟨base.nonNull, rest, ?_, rfl, hrest⟩
    exact bind_ok_iff.mpr ⟨base, middle, hbase, bind_ok_iff.mpr ⟨true, rest, haccept, rfl⟩⟩
  | named | list =>
    obtain ⟨base, rest, hbase, hread, hrest⟩ := hbare _ stream hstream
    have haccept := accept_eq_false hrest hnext
    refine ⟨base, rest, ?_, hread, hrest⟩
    exact bind_ok_iff.mpr ⟨base, rest, hbase, bind_ok_iff.mpr ⟨false, rest, haccept, rfl⟩⟩

/-- The nullable form of a type that can be spelled is taken as a bare type. -/
theorem takes_bareType {type : TypeRef String} {room : Nat} (hform : type.WellFormed)
    (hdepth : type.listDepth ≤ room) (kinds : List TokenKind) :
    (bareType room).Takes type.nullable kinds := by
  induction type generalizing room kinds with
  | named text =>
    intro stream hstream
    obtain ⟨pos, rest, hname, hrest⟩ := exists_name hstream
    refine ⟨.named ⟨text, pos⟩, rest, ?_, rfl, hrest⟩
    rw [bareType.eq_def]
    refine bind_ok_iff.mpr ⟨false, stream, accept_eq_false hstream nofun, ?_⟩
    exact bind_ok_iff.mpr ⟨_, rest, hname, rfl⟩
  | list item ih =>
    intro stream hstream
    cases room with
    | zero => exact absurd hdepth (Nat.not_succ_le_zero _)
    | succ room =>
      rw [TypeRef.nullable, TypeRef.tokens, List.cons_append, List.append_assoc] at hstream
      obtain ⟨afterOpen, hopen, hafterOpen⟩ := exists_accept hstream
      obtain ⟨read, afterItem, hread, rfl, hafterItem⟩ :=
        takes_typeRef (ih hform (Nat.le_of_succ_le_succ hdepth)) (by simp) afterOpen hafterOpen
      obtain ⟨pos, rest, hclose, hrest⟩ := exists_expect hafterItem
      refine ⟨.list read, rest, ?_, rfl, hrest⟩
      rw [bareType.eq_def]
      refine bind_ok_iff.mpr ⟨true, afterOpen, hopen, ?_⟩
      refine bind_ok_iff.mpr ⟨read, afterItem, hread, ?_⟩
      refine bind_ok_iff.mpr ⟨(), rest, ?_, rfl⟩
      exact bind_eq_ok_iff.mpr ⟨(pos, rest), hclose, rfl⟩
  | nonNull inner ih =>
    -- a bare type is its own nullable form
    have hinner : inner.nullable = inner := by
      cases inner with
      | nonNull => cases hform.1
      | named | list => rfl
    have htakes := ih hform.2 hdepth kinds
    rwa [hinner] at htakes

end Parser

/-- A parser reads a source that starts with a token if it takes all of its tokens. -/
theorem Parser.run_eq_ok_iff {α : Type} {parser : Parser α} {source : String} {result : α} :
    parser.run source = .ok result ↔
      ∃ token rest left, (TokenStream.ofString source).head = .ok token ∧
        parser (.ofString source) = .ok (result, rest) ∧
        Parser.endOfInput rest = .ok ((), left) := by
  rw [run]
  constructor
  · intro h
    obtain ⟨seen, hseen, hrun⟩ := bind_eq_ok_iff.mp h
    obtain ⟨token, hhead, -⟩ := bind_eq_ok_iff.mp hseen
    obtain ⟨⟨found, left⟩, htaken, hdone⟩ := bind_eq_ok_iff.mp hrun
    cases hdone
    obtain ⟨read, rest, hread, hend⟩ := bind_ok_iff.mp htaken
    obtain ⟨done, last, hlast, hresult⟩ := bind_ok_iff.mp hend
    cases hresult
    exact ⟨token, rest, left, hhead, hread, hlast⟩
  · rintro ⟨token, rest, left, hhead, hread, hend⟩
    refine bind_eq_ok_iff.mpr ⟨(), bind_eq_ok_iff.mpr ⟨token, hhead, rfl⟩, ?_⟩
    refine bind_eq_ok_iff.mpr ⟨(result, left), ?_, rfl⟩
    exact bind_ok_iff.mpr ⟨result, rest, hread, bind_ok_iff.mpr ⟨(), left, hend, rfl⟩⟩

namespace TypeRef

/-- A text is read as a type exactly if its tokens spell the type. -/
theorem parse_eq_ok_iff {text : String} {type : TypeRef String} :
    parse text = .ok type ↔
      type.Spellable ∧ Lexer.kinds? text.toList = some type.tokens := by
  have hread := TokenStream.isRead_ofChars text.toList Position.start
  constructor
  · intro h
    obtain ⟨read, hrun, hdone⟩ := bind_eq_ok_iff.mp h
    cases hdone
    obtain ⟨token, rest, left, -, htype, hend⟩ := Parser.run_eq_ok_iff.mp hrun
    obtain ⟨hstarts, hform, hdepth⟩ := Parser.starts_of_typeRef htype
    -- nothing is left after the type, so its tokens are all tokens
    have hkinds := hstarts.kinds?_eq
    rw [Parser.kinds?_of_endOfInput (hstarts.isRead hread) hend, Option.map_some,
      List.append_nil] at hkinds
    refine ⟨⟨?_, (wellFormed_map _ _).mpr hform, ?_⟩, hkinds⟩
    · exact TokenStream.isRead_of_kinds? hread hkinds _ (name_mem_tokens _)
    · rwa [listDepth_map]
  · rintro ⟨hspellable, hkinds⟩
    have htakes : (Parser.typeRef Parser.maxNesting).Takes type [] := Parser.takes_typeRef
      (Parser.takes_bareType hspellable.wellFormed hspellable.listDepth_le) nofun
    rw [Parser.Takes, List.append_nil] at htakes
    obtain ⟨read, rest, htype, rfl, hrest⟩ := htakes (.ofString text) hkinds
    obtain ⟨token, hhead⟩ := TokenStream.exists_head hkinds
    obtain ⟨left, hend⟩ := Parser.exists_endOfInput hrest
    have hrun := Parser.run_eq_ok_iff.mpr ⟨token, rest, left, hhead, htype, hend⟩
    exact bind_eq_ok_iff.mpr ⟨read, hrun, rfl⟩

end TypeRef

/-- Printing a type and reading it back gives the type, and reading a text and printing the type
gives the text without the characters that carry no meaning. So the texts of types are those with
the tokens of a printed type that can be spelled. -/
theorem parse_render_and_render_parse :
    (∀ type : TypeRef String, type.Spellable → TypeRef.parse type.render = .ok type) ∧
    (∀ text type, TypeRef.parse text = .ok type →
      type.render.toList = Lexer.significant false text.toList) ∧
    ∀ text type, TypeRef.parse text = .ok type ↔
      type.Spellable ∧ Lexer.kinds? text.toList = Lexer.kinds? type.render.toList := by
  have hrender {type : TypeRef String} (h : type.Spellable) :
      Lexer.kinds? type.render.toList = some type.tokens := by
    have hend : ∀ c ∈ ([] : List Char).head?, Lexer.isNameContinue c = false := by
      rintro _ ⟨⟩
    have hkinds := TypeRef.kinds?_render h.isName hend
    rwa [List.append_nil, Lexer.kinds?_nil, Option.map_some, List.append_nil] at hkinds
  refine ⟨fun type h => ?_, fun text type h => ?_, fun text type => ?_⟩
  · exact TypeRef.parse_eq_ok_iff.mpr ⟨h, hrender h⟩
  · obtain ⟨-, hkinds⟩ := TypeRef.parse_eq_ok_iff.mp h
    rw [Lexer.significant_of_kinds? hkinds TypeRef.isSome_word?_of_mem_tokens,
      TypeRef.flatMap_tokens]
  · rw [TypeRef.parse_eq_ok_iff]
    exact and_congr_right fun h => by rw [hrender h]

/-- A type over two lines, with a comment and a comma, is the same as the one that is printed as
`[ID!]!`. -/
theorem parse_render_and_render_parse_ids :
    let ids : TypeRef String := .nonNull (.list (.nonNull (.named "ID")))
    let text := "[ ID ! , ] # several\n !"
    ids.Spellable ∧ TypeRef.parse "[ID!]!" = .ok ids ∧ TypeRef.parse text = .ok ids ∧
      Lexer.significant false text.toList = "[ID!]!".toList := by
  intro ids text
  obtain ⟨hparse, hprint, hiff⟩ := parse_render_and_render_parse
  have hspellable : ids.Spellable :=
    { isName := ⟨'I', ['D'], by decide, by decide, List.forall_mem_singleton.mpr (by decide)⟩
      wellFormed := ⟨rfl, rfl, trivial⟩
      listDepth_le := by decide }
  have htext : TypeRef.parse text = .ok ids := (hiff text ids).mpr ⟨hspellable, by cbv⟩
  exact ⟨hspellable, hparse ids hspellable, htext, (hprint text ids htext).symm⟩

end RelayCheck
