import Mathlib.Data.List.TakeWhile
import ScriptStore.Json.Token
import ScriptStore.Json.Writer
import ScriptStore.Proofs.Json.Values

/-!
# The tokens of written texts

Whatever its layout, the text of a value is read into the tokens of the value (`Json.tokens`), in
which nothing is left of blanks and escapes.  A text is read piece by piece: a piece is *closed* if
nothing is pending behind it (`Lexer.Closed`), and *read* if at most an undelimited value is, which
the next bracket, separator or blank ends (`Lexer.Reads`).

A number must be one that reads back from its own spelling.  That makes its characters digits,
signs, points and exponent marks, of which none ends an undelimited value.
-/

namespace ScriptStore

/-! ## Characters of numbers -/

namespace Number

/-- The characters that the spelling of a number may have. -/
def isNumberChar (c : Char) : Bool :=
  c.isDigit || c == '-' || c == '+' || c == '.' || c == 'e' || c == 'E'

/-- Digits stand in numbers. -/
theorem isNumberChar_of_isDigit {c : Char} (h : c.isDigit = true) : isNumberChar c = true := by
  simp [isNumberChar, h]

/-- A run of digits takes digits only and leaves what follows. -/
theorem digitRun_eq {cs digits rest : List Char} (h : digitRun cs = (digits, rest)) :
    cs = digits ++ rest ∧ ∀ c ∈ digits, isNumberChar c = true := by
  rw [digitRun, Prod.mk.injEq] at h
  obtain ⟨rfl, rfl⟩ := h
  refine ⟨List.takeWhile_append_dropWhile.symm, fun c hc => ?_⟩
  exact isNumberChar_of_isDigit (List.mem_takeWhile_imp hc)

/-- The whole part is a nonempty run of digits, and the rest is left. -/
theorem wholePart?_eq_some {cs digits rest : List Char} (h : wholePart? cs = some (digits, rest)) :
    cs = digits ++ rest ∧ digits ≠ [] ∧ ∀ c ∈ digits, isNumberChar c = true := by
  unfold wholePart? at h
  split at h
  · cases h
  · cases h
  · rename_i hnil _
    have hrun : digitRun cs = (digits, rest) := Option.some.inj h
    obtain ⟨hcs, hdigits⟩ := digitRun_eq hrun
    refine ⟨hcs, ?_, hdigits⟩
    rintro rfl
    exact hnil rest hrun

/-- The characters of the fraction stand in numbers, and all others are left. -/
theorem fractionPart?_eq_some {cs digits rest : List Char}
    (h : fractionPart? cs = some (digits, rest)) :
    ∀ c ∈ cs, isNumberChar c = true ∨ c ∈ rest := by
  unfold fractionPart? at h
  split at h
  · rename_i cs'
    split at h
    · cases h
    · have hrun : digitRun cs' = (digits, rest) := Option.some.inj h
      obtain ⟨rfl, hdigits⟩ := digitRun_eq hrun
      intro c hc
      rcases List.mem_cons.mp hc with rfl | hc
      · exact Or.inl rfl
      · exact (List.mem_append.mp hc).imp (hdigits c) id
  · rw [Option.some.injEq, Prod.mk.injEq] at h
    intro c hc
    exact Or.inr (h.2 ▸ hc)

theorem isNumberChar_of_natural? {cs : List Char} {n : Nat} (h : natural? cs = some n) :
    ∀ c ∈ cs, isNumberChar c = true := by
  unfold natural? at h
  split at h
  · cases h
  · rename_i digits _ hrun
    obtain ⟨rfl, hdigits⟩ := digitRun_eq hrun
    rwa [List.append_nil]
  · cases h

theorem isNumberChar_of_exponent? {cs : List Char} {e : Int} (h : exponent? cs = some e) :
    ∀ c ∈ cs, isNumberChar c = true := by
  unfold exponent? at h
  split at h
  · obtain ⟨n, hn, -⟩ := Option.map_eq_some_iff.mp h
    exact List.forall_mem_cons.mpr ⟨rfl, isNumberChar_of_natural? hn⟩
  · obtain ⟨_, hlift, -⟩ := Option.map_eq_some_iff.mp h
    obtain ⟨n, hn, -⟩ := Option.bind_eq_some_iff.mp hlift
    exact List.forall_mem_cons.mpr ⟨rfl, isNumberChar_of_natural? hn⟩
  · obtain ⟨n, hn, -⟩ := Option.map_eq_some_iff.mp h
    exact isNumberChar_of_natural? hn

/-- What is read as an exponent stands in numbers. -/
theorem isNumberChar_of_exponentPart? {cs : List Char} {e : Option Int}
    (h : exponentPart? cs = some e) : ∀ c ∈ cs, isNumberChar c = true := by
  unfold exponentPart? at h
  split at h
  · nofun
  · rename_i c cs
    split at h
    · rename_i hmark
      obtain ⟨n, hn, -⟩ := Option.map_eq_some_iff.mp h
      refine List.forall_mem_cons.mpr ⟨?_, isNumberChar_of_exponent? hn⟩
      rcases hmark with rfl | rfl <;> rfl
    · cases h

/-- What is read as a number without a sign is nonempty and stands in numbers. -/
theorem isNumberChar_of_ofUnsigned? {negative : Bool} {cs : List Char} {n : Number}
    (h : ofUnsigned? negative cs = some n) : cs ≠ [] ∧ ∀ c ∈ cs, isNumberChar c = true := by
  obtain ⟨⟨whole, afterWhole⟩, hwhole, h⟩ := Option.bind_eq_some_iff.mp h
  obtain ⟨⟨fraction, afterFraction⟩, hfraction, h⟩ := Option.bind_eq_some_iff.mp h
  obtain ⟨exponent, hexponent, -⟩ := Option.bind_eq_some_iff.mp h
  obtain ⟨rfl, hne, hdigits⟩ := wholePart?_eq_some hwhole
  refine ⟨by simp [hne], fun c hc => ?_⟩
  rcases List.mem_append.mp hc with hc | hc
  · exact hdigits c hc
  · rcases fractionPart?_eq_some hfraction c hc with hchar | hrest
    · exact hchar
    · exact isNumberChar_of_exponentPart? hexponent c hrest

/-- Characters that spell a number are characters of numbers, and there is one. -/
theorem isNumberChar_of_ofChars? {cs : List Char} {n : Number} (h : ofChars? cs = some n) :
    cs ≠ [] ∧ ∀ c ∈ cs, isNumberChar c = true := by
  unfold ofChars? at h
  split at h
  · exact ⟨List.cons_ne_nil _ _, List.forall_mem_cons.mpr ⟨rfl, (isNumberChar_of_ofUnsigned? h).2⟩⟩
  · exact isNumberChar_of_ofUnsigned? h

/-- The number is read back from its own spelling. -/
def ReadsBack (n : Number) : Prop := ofChars? n.chars = some n

instance (n : Number) : Decidable n.ReadsBack := inferInstanceAs (Decidable (_ = _))

end Number

namespace Json

/-! ## The tokens of a value -/

mutual
/-- The tokens of a value. -/
def tokens : Json → List Token
  | .null => [.atom .null]
  | .bool value => [.atom (.bool value)]
  | .num value => [.atom (.num value)]
  | .str value => [.text value]
  | .arr items => .openArray :: (itemTokens true items ++ [.closeArray])
  | .obj fields => .openObject :: (fieldTokens true fields ++ [.closeObject])

/-- The tokens of items, with what separates them. -/
def itemTokens (first : Bool) : List Json → List Token
  | [] => []
  | item :: rest => (if first then [] else [.comma]) ++ tokens item ++ itemTokens false rest

/-- The tokens of fields, with what separates them. -/
def fieldTokens (first : Bool) : List (String × Json) → List Token
  | [] => []
  | (key, value) :: rest =>
    (if first then [] else [.comma]) ++ [.text key, .colon] ++ tokens value ++
      fieldTokens false rest
end

namespace Lexer

/-! ## Pieces of a text -/

/-- Behind these tokens, latest first, nothing is pending but perhaps an undelimited value, which is
the latest of them. -/
def Behind (lexer : Lexer) (tokens : List Token) : Prop := lexer.finish? = some tokens.reverse

/-- A piece of a text that is read into tokens, with nothing pending. -/
def Closed (cs : List Char) (tokens : List Token) : Prop :=
  ∀ before, cs.foldlM step ⟨before, .between⟩ = some ⟨tokens.reverse ++ before, .between⟩

/-- A piece of a text that is read into tokens, where the end of an undelimited value may be
pending. -/
def Reads (cs : List Char) (tokens : List Token) : Prop :=
  ∀ before, ∃ lexer, cs.foldlM step ⟨before, .between⟩ = some lexer ∧
    lexer.Behind (tokens.reverse ++ before)

theorem Closed.reads {cs : List Char} {tokens : List Token} (h : Closed cs tokens) :
    Reads cs tokens := fun before => ⟨_, h before, rfl⟩

theorem closed_nil : Closed [] [] := fun _ => rfl

/-- After a closed piece comes any other. -/
theorem Closed.append {cs ds : List Char} {a b : List Token} (h : Closed cs a) (h' : Closed ds b) :
    Closed (cs ++ ds) (a ++ b) := by
  intro before
  rw [List.foldlM_append, h before, List.reverse_append, List.append_assoc]
  exact h' _

/-- What is read behind a closed piece follows its tokens. -/
theorem Closed.append_reads {cs ds : List Char} {a b : List Token} (h : Closed cs a)
    (h' : Reads ds b) : Reads (cs ++ ds) (a ++ b) := by
  intro before
  rw [List.foldlM_append, h before, List.reverse_append, List.append_assoc]
  exact h' _

/-- Between the tokens every character begins anew. -/
theorem step_between (before : List Token) (c : Char) :
    step ⟨before, .between⟩ c = some (begin before c) := rfl

/-- An undelimited value goes on to the first character that ends it. -/
theorem step_inAtom (before : List Token) (read : List Char) (c : Char) :
    step ⟨before, .inAtom read⟩ c =
      if endsAtom c then
        (Token.ofAtom? read.reverse).map fun token => begin (token :: before) c
      else some ⟨before, .inAtom (c :: read)⟩ := rfl

/-- What ends an undelimited value is read as if nothing were pending. -/
theorem step_of_endsAtom {lexer : Lexer} {before : List Token} (h : lexer.Behind before) {c : Char}
    (hc : endsAtom c = true) : lexer.step c = some (begin before c) := by
  obtain ⟨tokens, state⟩ := lexer
  cases state with
  | between =>
    have hbefore : tokens = before := List.reverse_inj.mp (Option.some.inj h)
    rw [step_between, hbefore]
  | inAtom read =>
    obtain ⟨token, htoken, hbefore⟩ := Option.map_eq_some_iff.mp h
    rw [List.reverse_inj] at hbefore
    rw [step_inAtom, if_pos hc, htoken, ← hbefore]
    rfl
  | _ => cases h

/-- Nothing is read from an empty text. -/
theorem Reads.eq_nil {tokens : List Token} (h : Reads [] tokens) : tokens = [] := by
  obtain ⟨lexer, hlexer, hbehind⟩ := h []
  obtain rfl := Option.some.inj hlexer
  rw [Behind, finish?, Option.some.injEq, List.append_nil, List.reverse_reverse] at hbehind
  exact hbehind.symm

/-- The first character of a piece, if there is one, ends an undelimited value. -/
def EndsAtom (cs : List Char) : Prop := ∀ c ∈ cs.head?, endsAtom c = true

/-- After a piece comes one that ends an undelimited value. -/
theorem Reads.append {cs ds : List Char} {a b : List Token} (h : Reads cs a) (h' : Reads ds b)
    (hends : EndsAtom ds) : Reads (cs ++ ds) (a ++ b) := by
  cases ds with
  | nil =>
    rw [h'.eq_nil, List.append_nil, List.append_nil]
    exact h
  | cons c rest =>
    intro before
    obtain ⟨lexer, hlexer, hbehind⟩ := h before
    obtain ⟨last, hlast, hafter⟩ := h' (a.reverse ++ before)
    rw [← List.append_assoc, ← List.reverse_append] at hafter
    rw [List.foldlM_append, hlexer]
    refine ⟨last, ?_, hafter⟩
    show (c :: rest).foldlM step lexer = some last
    rw [List.foldlM_cons, step_between] at hlast
    rwa [List.foldlM_cons, step_of_endsAtom hbehind (hends c rfl)]

/-- The tokens of a text that is read as a whole. -/
theorem Reads.tokens? {cs : List Char} {tokens : List Token} (h : Reads cs tokens) :
    tokens? cs = some tokens := by
  obtain ⟨lexer, hlexer, hbehind⟩ := h []
  rw [Json.tokens?, start, hlexer, Option.bind_some, hbehind, List.append_nil, List.reverse_reverse]

/-! ## Blanks, brackets and separators -/

/-- Blanks are no tokens of their own. -/
theorem ofChar?_of_isBlank {c : Char} (h : isBlank c = true) : Token.ofChar? c = none := by
  simp only [isBlank, Bool.or_eq_true, beq_iff_eq] at h
  rcases h with ((rfl | rfl) | rfl) | rfl <;> rfl

theorem closed_blank {c : Char} (hc : isBlank c = true) : Closed [c] [] := by
  intro before
  show some (begin before c) = _
  rw [begin, if_pos hc]
  rfl

/-- Blanks are passed over. -/
theorem closed_blanks {cs : List Char} (h : ∀ c ∈ cs, isBlank c = true) : Closed cs [] := by
  induction cs with
  | nil => exact closed_nil
  | cons c rest ih =>
    rw [List.forall_mem_cons] at h
    exact (closed_blank h.1).append (ih h.2)

/-- Line breaks are passed over, with their indentation. -/
theorem closed_lineBreak (layout : Layout) (level : Nat) : Closed (layout.lineBreak level) [] := by
  cases layout with
  | compact => exact closed_nil
  | pretty =>
    refine closed_blanks fun c hc => ?_
    rcases List.mem_cons.mp hc with rfl | hc
    · rfl
    · rw [List.eq_of_mem_replicate hc]
      rfl

/-- What comes at the beginning of a line ends an undelimited value before it, in the compact layout
the bracket itself. -/
theorem endsAtom_lineBreak_append (layout : Layout) (level : Nat) {cs : List Char}
    (h : EndsAtom cs) : EndsAtom (layout.lineBreak level ++ cs) := by
  cases layout with
  | compact => exact h
  | pretty =>
    rintro c ⟨⟩
    rfl

/-- A bracket or separator is a token of its own. -/
theorem closed_bracket {c : Char} {token : Token} (h : Token.ofChar? c = some token) :
    Closed [c] [token] := by
  intro before
  show some (begin before c) = _
  have hblank : isBlank c = false := by
    rw [Bool.eq_false_iff]
    intro hblank
    rw [ofChar?_of_isBlank hblank] at h
    cases h
  have hquote : c ≠ '"' := by
    rintro rfl
    cases h
  rw [begin, hblank, if_neg Bool.false_ne_true, if_neg hquote, h]
  rfl

/-- A token of one character ends an undelimited value. -/
theorem endsAtom_bracket {c : Char} {token : Token} (h : Token.ofChar? c = some token) :
    EndsAtom [c] := by
  rintro _ ⟨⟩
  rw [endsAtom, h, Option.isSome_some, Bool.or_true]

/-- A colon is read with the blank behind it. -/
theorem closed_colon (layout : Layout) : Closed layout.colon [.colon] := by
  cases layout <;> exact fun _ => rfl

/-- There is a comma before every item but the first. -/
theorem closed_separator (first : Bool) :
    Closed (Layout.separator first) (if first then [] else [.comma]) := by
  cases first <;> exact fun _ => rfl

/-! ## Strings -/

/-- The digit of a small number is read back. -/
theorem hexValue?_hexDigit : ∀ n < 16, hexValue? (hexDigit n) = some n := by decide

/-- In a text a quote ends it, a backslash begins an escape, and other characters are kept. -/
theorem step_inText (before : List Token) (read : List Char) (c : Char) :
    step ⟨before, .inText read⟩ c =
      if c = '"' then some ⟨.text (String.ofList read.reverse) :: before, .between⟩
      else if c = '\\' then some ⟨before, .inEscape read⟩
      else if c.toNat < 0x20 then none
      else some ⟨before, .inText (c :: read)⟩ := rfl

/-- Four digits make a unit. -/
theorem step_inUnit (before : List Token) (read : List Char) (high : Option Nat)
    (count value : Nat) {c : Char} {digit : Nat} (h : hexValue? c = some digit) :
    step ⟨before, .inUnit read high count value⟩ c =
      if count < 3 then some ⟨before, .inUnit read high (count + 1) (16 * value + digit)⟩
      else takeUnit before read high (16 * value + digit) := by
  unfold step
  dsimp only
  rw [h]

/-- A control character is read back from its code. -/
theorem foldlM_unit (before : List Token) (read : List Char) {c : Char} (h : c.toNat < 0x20) :
    ['\\', 'u', '0', '0', hexDigit (c.toNat / 16), hexDigit (c.toNat % 16)].foldlM step
      ⟨before, .inText read⟩ = some ⟨before, .inText (c :: read)⟩ := by
  have hupper := hexValue?_hexDigit (c.toNat / 16) (by omega)
  have hlower := hexValue?_hexDigit (c.toNat % 16) (Nat.mod_lt _ (by decide))
  have hcode : 16 * (c.toNat / 16) + c.toNat % 16 = c.toNat := by omega
  show [hexDigit (c.toNat / 16), hexDigit (c.toNat % 16)].foldlM step
    ⟨before, .inUnit read none 2 0⟩ = _
  rw [List.foldlM_cons, step_inUnit _ _ _ _ _ hupper]
  show [hexDigit (c.toNat % 16)].foldlM step
    ⟨before, .inUnit read none 3 (16 * 0 + c.toNat / 16)⟩ = _
  rw [Nat.mul_zero, Nat.zero_add, List.foldlM_cons, step_inUnit _ _ _ _ _ hlower, hcode,
    if_neg (by decide)]
  have hhigh : isHighSurrogate c.toNat = false := by
    simp only [isHighSurrogate, Bool.and_eq_false_iff, decide_eq_false_iff_not]
    omega
  have hlow : isLowSurrogate c.toNat = false := by
    simp only [isLowSurrogate, Bool.and_eq_false_iff, decide_eq_false_iff_not]
    omega
  rw [takeUnit, hhigh, hlow]
  show some (Lexer.mk before (.inText (Char.ofNat c.toNat :: read))) = _
  rw [Char.ofNat_toNat]

/-- A character is read back from what stands for it in a string. -/
theorem foldlM_escape (before : List Token) (read : List Char) (c : Char) :
    (escape c).foldlM step ⟨before, .inText read⟩ = some ⟨before, .inText (c :: read)⟩ := by
  unfold escape
  -- the escapes of a single letter
  iterate 7
    split
    · subst c
      rfl
  rename_i hquote hslash _ _ _ _ _
  split
  · rename_i hcontrol
    exact foldlM_unit before read hcontrol
  · rename_i hcontrol
    rw [List.foldlM_cons, step_inText, if_neg hquote, if_neg hslash, if_neg hcontrol]
    rfl

/-- A string is read back from its quoted form. -/
theorem closed_quote (s : String) : Closed (quote s) [.text s] := by
  have hbody : ∀ (cs read : List Char) (before : List Token),
      (cs.flatMap escape).foldlM step ⟨before, .inText read⟩ =
        some ⟨before, .inText (cs.reverse ++ read)⟩ := by
    intro cs
    induction cs with
    | nil => exact fun _ _ => rfl
    | cons c rest ih =>
      intro read before
      rw [List.flatMap_cons, List.foldlM_append, foldlM_escape]
      show (rest.flatMap escape).foldlM step _ = _
      rw [ih, List.reverse_cons, List.append_assoc, List.singleton_append]
  intro before
  show (s.toList.flatMap escape ++ ['"']).foldlM step ⟨before, .inText []⟩ = _
  rw [List.foldlM_append, hbody]
  show some (Lexer.mk (.text (String.ofList _) :: before) .between) = _
  rw [List.append_nil, List.reverse_reverse, String.ofList_toList]
  rfl

/-! ## Undelimited values -/

/-- No character of a number ends it. -/
theorem endsAtom_of_isNumberChar {c : Char} (h : Number.isNumberChar c = true) :
    endsAtom c = false := by
  rw [Bool.eq_false_iff]
  intro hends
  simp only [endsAtom, isBlank, Bool.or_eq_true, beq_iff_eq] at hends
  rcases hends with hplain | hbracket
  · rcases hplain with (((rfl | rfl) | rfl) | rfl) | rfl <;> exact absurd h (by decide)
  · unfold Token.ofChar? at hbracket
    split at hbracket
    all_goals first | exact absurd h (by decide) | cases hbracket

/-- Characters of numbers are gathered. -/
theorem foldlM_numberChars {cs : List Char} (h : ∀ c ∈ cs, Number.isNumberChar c = true)
    (before : List Token) (read : List Char) :
    cs.foldlM step ⟨before, .inAtom read⟩ = some ⟨before, .inAtom (cs.reverse ++ read)⟩ := by
  induction cs generalizing read with
  | nil => rfl
  | cons c rest ih =>
    rw [List.forall_mem_cons] at h
    rw [List.foldlM_cons, step, endsAtom_of_isNumberChar h.1]
    show rest.foldlM step ⟨before, .inAtom (c :: read)⟩ = _
    rw [ih h.2, List.reverse_cons, List.append_assoc, List.singleton_append]

/-- Characters of numbers spell no other undelimited value than a number. -/
theorem ofAtom?_of_isNumberChar {cs : List Char} (h : ∀ c ∈ cs, Number.isNumberChar c = true) :
    Token.ofAtom? cs = (Number.ofChars? cs).map fun n => .atom (.num n) := by
  have hne : ∀ c, Number.isNumberChar c = false → ∀ rest, cs ≠ c :: rest := by
    rintro c hc rest rfl
    rw [h c List.mem_cons_self] at hc
    cases hc
  rw [Token.ofAtom?, if_neg (hne 'n' rfl _), if_neg (hne 't' rfl _), if_neg (hne 'f' rfl _)]

/-- A number that reads back from its spelling is read. -/
theorem reads_number {n : Number} (h : n.ReadsBack) : Reads n.chars [.atom (.num n)] := by
  obtain ⟨hne, hchars⟩ := Number.isNumberChar_of_ofChars? h
  obtain ⟨c, rest, hcs⟩ := List.exists_cons_of_ne_nil hne
  have hfirst : ∀ before, begin before c = ⟨before, .inAtom [c]⟩ := by
    intro before
    have hends := endsAtom_of_isNumberChar (hchars c (hcs ▸ List.mem_cons_self))
    simp only [endsAtom, Bool.or_eq_false_iff, beq_eq_false_iff_ne, Option.isSome_eq_false_iff,
      Option.isNone_iff_eq_none] at hends
    rw [begin, hends.1.1, if_neg Bool.false_ne_true, if_neg hends.1.2, hends.2]
  intro before
  refine ⟨⟨before, .inAtom n.chars.reverse⟩, ?_, ?_⟩
  · have hrest : ∀ d ∈ rest, Number.isNumberChar d = true :=
      fun d hd => hchars d (hcs ▸ List.mem_cons_of_mem c hd)
    rw [hcs, List.foldlM_cons, step_between, hfirst]
    show rest.foldlM step ⟨before, .inAtom [c]⟩ = _
    rw [foldlM_numberChars hrest, List.reverse_cons]
  · show (Token.ofAtom? n.chars.reverse.reverse).map _ = _
    rw [List.reverse_reverse, ofAtom?_of_isNumberChar hchars, h]
    rfl

/-! ## Values -/

/-- The first item or field is not separated from what stands before it, and each other is. -/
theorem endsAtom_itemChars (layout : Layout) (level : Nat) (items : List Json) :
    EndsAtom (itemChars layout level false items) := by
  cases items with
  | nil =>
    rw [itemChars]
    rintro c ⟨⟩
  | cons item rest =>
    rw [itemChars]
    rintro c ⟨⟩
    rfl

theorem endsAtom_fieldChars (layout : Layout) (level : Nat) (fields : List (String × Json)) :
    EndsAtom (fieldChars layout level false fields) := by
  cases fields with
  | nil =>
    rw [fieldChars]
    rintro c ⟨⟩
  | cons field rest =>
    obtain ⟨key, value⟩ := field
    rw [fieldChars]
    rintro c ⟨⟩
    rfl

/-- The items are read one by one. -/
theorem reads_itemChars {layout : Layout} {items : List Json}
    (h : ∀ item ∈ items, ∀ level, Reads (chars layout level item) item.tokens) (level : Nat)
    (first : Bool) : Reads (itemChars layout level first items) (itemTokens first items) := by
  induction items generalizing first with
  | nil =>
    rw [itemChars, itemTokens]
    exact closed_nil.reads
  | cons item rest ih =>
    rw [List.forall_mem_cons] at h
    rw [itemChars, itemTokens]
    have hstart := (closed_separator first).append (closed_lineBreak layout level)
    rw [List.append_nil] at hstart
    exact (hstart.append_reads (h.1 level)).append (ih h.2 false) (endsAtom_itemChars _ _ _)

/-- The fields are read one by one. -/
theorem reads_fieldChars {layout : Layout} {fields : List (String × Json)}
    (h : ∀ field ∈ fields, ∀ level, Reads (chars layout level field.2) field.2.tokens) (level : Nat)
    (first : Bool) : Reads (fieldChars layout level first fields) (fieldTokens first fields) := by
  induction fields generalizing first with
  | nil =>
    rw [fieldChars, fieldTokens]
    exact closed_nil.reads
  | cons field rest ih =>
    obtain ⟨key, value⟩ := field
    rw [List.forall_mem_cons] at h
    rw [fieldChars, fieldTokens]
    have hstart := ((closed_separator first).append (closed_lineBreak layout level)).append
      ((closed_quote key).append (closed_colon layout))
    rw [List.append_nil, ← List.append_assoc] at hstart
    exact (hstart.append_reads (h.1 level)).append (ih h.2 false) (endsAtom_fieldChars _ _ _)

/-- Brackets around a piece, the closing one on a line of its own in the pretty layout. -/
theorem reads_brackets {layout : Layout} {level : Nat} {cs : List Char} {read : List Token}
    {left right : Char} {opening closing : Token} (hleft : Token.ofChar? left = some opening)
    (hright : Token.ofChar? right = some closing) (h : Reads cs read) :
    Reads (left :: (cs ++ layout.lineBreak level ++ [right])) (opening :: (read ++ [closing])) := by
  have hclosing := (closed_lineBreak layout level).append (closed_bracket hright)
  have hends := endsAtom_lineBreak_append layout level (endsAtom_bracket hright)
  rw [List.append_assoc]
  exact (closed_bracket hleft).append_reads (h.append hclosing.reads hends)

/-- **Written values are read**: the text of a value is read into its tokens. -/
theorem reads_chars (layout : Layout) (value : Json)
    (h : ∀ n ∈ value.numbers, n.ReadsBack) (level : Nat) :
    Reads (chars layout level value) value.tokens := by
  induction value using inductionOn generalizing level with
  | null =>
    rw [chars, Json.tokens]
    -- an undelimited value is held back, last character first, until something ends it
    exact fun before => ⟨⟨before, .inAtom ['l', 'l', 'u', 'n']⟩, rfl, rfl⟩
  | bool value =>
    cases value with
    | true =>
      rw [chars, Json.tokens]
      exact fun before => ⟨⟨before, .inAtom ['e', 'u', 'r', 't']⟩, rfl, rfl⟩
    | false =>
      rw [chars, Json.tokens]
      exact fun before => ⟨⟨before, .inAtom ['e', 's', 'l', 'a', 'f']⟩, rfl, rfl⟩
  | num n =>
    rw [numbers] at h
    rw [chars, Json.tokens]
    exact reads_number (h n List.mem_cons_self)
  | str s =>
    rw [chars, Json.tokens]
    exact (closed_quote s).reads
  | arr items ih =>
    have hitems : ∀ item ∈ items, ∀ level, Reads (chars layout level item) item.tokens :=
      fun item hitem => ih item hitem fun n hn => h n (numbers_subset_of_mem_items hitem hn)
    rw [Json.tokens]
    cases items with
    | nil =>
      rw [chars, itemTokens]
      exact Closed.reads fun _ => rfl
    | cons first rest =>
      rw [chars]
      exact reads_brackets rfl rfl (reads_itemChars hitems (level + 1) true)
  | obj fields ih =>
    have hfields : ∀ field ∈ fields, ∀ level,
        Reads (chars layout level field.2) field.2.tokens :=
      fun field hfield => ih field hfield fun n hn => h n (numbers_subset_of_mem_fields hfield hn)
    rw [Json.tokens]
    cases fields with
    | nil =>
      rw [chars, fieldTokens]
      exact Closed.reads fun _ => rfl
    | cons first rest =>
      rw [chars]
      exact reads_brackets rfl rfl (reads_fieldChars hfields (level + 1) true)

end Lexer

end Json

end ScriptStore
