import ContractInterface.Expr.Token
import ContractInterface.Proofs.Except
import ContractInterface.Proofs.Header.Statement
import ContractInterface.Proofs.Text.Word

/-!
# Tokens and blanks

No token reaches over a blank, so the tokens of a text are those of its words one after the
other.  The length of a run of blanks does not matter then: a text and its collapse have the same
tokens.  Outside its blanks a text that has tokens consists of token characters.
-/

namespace ContractInterface

theorem isDecimal_of_isBlank {c : Char} (h : isBlank c) :
  isDecimal c = false
  := by
  have hcodes : ∀ n ∈ blankCodes, isDecimal (Char.ofNat n) = false := by
    decide +kernel
  simpa using hcodes c.toNat (mem_blankCodes h)

theorem isHex_of_isBlank {c : Char} (h : isBlank c) :
  isHex c = false
  := by
  have hcodes : ∀ n ∈ blankCodes, isHex (Char.ofNat n) = false := by
    decide +kernel
  simpa using hcodes c.toNat (mem_blankCodes h)

namespace Expr.Token

/-! ### Tokens in front of a blank -/

section Break

variable {rest : Text} (hrest : ∀ c ∈ rest.head?, isBlank c)

include hrest

theorem afterSuffix?_append (t : Text) :
  afterSuffix? (t ++ rest) = (afterSuffix? t).map (· ++ rest)
  := by
  obtain ⟨htake, hdrop⟩ :=
    Text.takeWhile_append_stop (fun c hc => isWord_of_isBlank (hrest c hc)) t
  rw [afterSuffix?, afterSuffix?, htake, hdrop]
  split
  · rfl
  · rfl

theorem takeHex?_append (t : Text) :
  takeHex? (t ++ rest) = (takeHex? t).map fun (digits, t') => (digits, t' ++ rest)
  := by
  match t with
  | [] =>
      cases rest with
      | nil => rfl
      | cons c rest =>
          have hc : c ≠ '0' := by
            rintro rfl
            exact absurd (hrest '0' rfl) (by decide)
          simp [takeHex?, hc]
  | [c] =>
      cases rest with
      | nil => simp [takeHex?]
      | cons d rest =>
          have hblank : isBlank d := hrest d rfl
          have hx : d ≠ 'x' ∧ d ≠ 'X' := by
            constructor
            · rintro rfl
              contradiction
            · rintro rfl
              contradiction
          by_cases hc : c = '0'
          · simp [takeHex?, hc, hx]
          · simp [takeHex?, hc]
  | c :: x :: t =>
      obtain ⟨htake, hdrop⟩ :=
        Text.takeWhile_append_stop (fun c hc => isHex_of_isBlank (hrest c hc)) t
      by_cases hc : c = '0'
      · subst hc
        simp only [List.cons_append, takeHex?, htake, hdrop]
        split
        · rfl
        · rfl
      · simp [takeHex?, hc]

theorem takeNumber?_append (t : Text) :
  takeNumber? (t ++ rest) =
    (takeNumber? t).map (Option.map fun (value, t') => (value, t' ++ rest))
  := by
  rw [takeNumber?, takeNumber?, takeHex?_append hrest]
  rcases takeHex? t with _ | ⟨digits, t'⟩
  · obtain ⟨htake, hdrop⟩ :=
      Text.takeWhile_append_stop (fun c hc => isDecimal_of_isBlank (hrest c hc)) t
    simp only [Option.map_none, htake, hdrop, afterSuffix?_append hrest]
    rcases afterSuffix? (t.dropWhile isDecimal) with _ | t'
    · rfl
    · simp only [Option.map_some]
      rcases Numeral.read (t.takeWhile isDecimal) with _ | value
      · rfl
      · rfl
  · simp only [Option.map_some, afterSuffix?_append hrest]
    rcases afterSuffix? t' with _ | t''
    · rfl
    · rfl

theorem take?_append {t : Text} (hne : t ≠ []) :
  take? (t ++ rest) = (take? t).map (Option.map fun (token, t') => (token, t' ++ rest))
  := by
  obtain ⟨c, t, rfl⟩ := List.exists_cons_of_ne_nil hne
  have hnumber := takeNumber?_append hrest (c :: t)
  rw [List.cons_append] at hnumber ⊢
  rw [take?, take?]
  split
  · rw [hnumber]
    rcases takeNumber? (c :: t) with _ | _ | ⟨value, t'⟩
    · rfl
    · rfl
    · rfl
  · split
    · rfl
    · split
      · rfl
      · rcases Op.ofSign? c with _ | o
        · obtain ⟨htake, hdrop⟩ :=
            Text.takeWhile_append_stop (fun c hc => isWord_of_isBlank (hrest c hc)) t
          simp only [Text.takeIdent?, htake, hdrop]
          split
          · rfl
          · rfl
        · rfl

end Break

/-! ### The tokens of a text -/

/-- The tokens of a text after those of another one, if both have tokens. -/
def join (x y : Except Numeral.Error (Option (List Token))) :
    Except Numeral.Error (Option (List Token)) := do
  match ← x with
  | none => return none
  | some tokens => return (← y).map (tokens ++ ·)

theorem join_nil_left (y : Except Numeral.Error (Option (List Token))) :
  join (.ok (some [])) y = y
  := by
  rcases y with _ | _ | tokens
  · rfl
  · rfl
  · rfl

theorem join_nil_right (x : Except Numeral.Error (Option (List Token))) :
  join x (.ok (some [])) = x
  := by
  rcases x with _ | _ | tokens
  · rfl
  · rfl
  · simp [join, bind, Except.bind, pure, Except.pure]

theorem lexFrom_append {rest : Text} (hrest : ∀ c ∈ rest.head?, isBlank c) (t : Text)
    {skip : Nat} (hskip : skip ≤ t.length) :
  lexFrom skip (t ++ rest) = join (lexFrom skip t) (lexFrom 0 rest)
  := by
  induction t generalizing skip with
  | nil =>
      obtain rfl : skip = 0 := Nat.le_zero.mp hskip
      rw [lexFrom, join_nil_left, List.nil_append]
  | cons c t ih =>
      cases skip with
      | succ skip =>
          rw [List.cons_append, lexFrom, lexFrom, ih (by simpa using hskip)]
      | zero =>
          have htake := take?_append hrest (List.cons_ne_nil c t)
          rw [List.cons_append] at htake
          rw [List.cons_append, lexFrom, lexFrom]
          split
          · apply ih (Nat.zero_le _)
          · rw [htake]
            rcases take? (c :: t) with _ | _ | ⟨token, t'⟩
            · rfl
            · rfl
            · -- Both texts pass over the same characters, those of the token.
              have hlength : (t ++ rest).length - (t' ++ rest).length = t.length - t'.length := by
                simp only [List.length_append]
                omega
              simp only [Except.map, Option.map_some, bind, Except.bind, hlength,
                ih (Nat.sub_le t.length t'.length)]
              rcases lexFrom (t.length - t'.length) t with _ | _ | tokens
              · rfl
              · rfl
              · rcases lexFrom 0 rest with _ | _ | tokens'
                · rfl
                · rfl
                · rfl

theorem lexFrom_cons_blank {c : Char} (h : isBlank c) (t : Text) :
  lexFrom 0 (c :: t) = lexFrom 0 t
  := by
  rw [lexFrom, if_pos h]

/-- A text and its collapse have the same tokens. -/
theorem lexFrom_collapse (t : Text) :
  lexFrom 0 (Text.collapse t) = lexFrom 0 t
  := by
  -- The induction goes from one run of blanks to the next, so it is on the length.
  induction h : t.length using Nat.strong_induction_on generalizing t with
  | _ n ih =>
      rcases Text.solid_or_exists_break t with hsolid | ⟨w, c, rest, rfl, hsolid, hc⟩
      · cases t with
        | nil => rfl
        | cons c t => rw [Text.collapse_of_solid (List.cons_ne_nil c t) hsolid]
      · have hlength : rest.length < n := by
          simp only [List.length_append, List.length_cons] at h
          omega
        have happend : ∀ {d : Char}, isBlank d → ∀ rest,
            lexFrom 0 (w ++ d :: rest) = join (lexFrom 0 w) (lexFrom 0 rest) := by
          intro d hd rest
          rw [lexFrom_append (by simpa using hd) w (Nat.zero_le _), lexFrom_cons_blank hd]
        rw [happend hc, ← ih rest.length hlength rest rfl]
        by_cases hw : w = []
        · rw [hw, List.nil_append, Text.collapse_cons_blank hc, lexFrom, join_nil_left]
        · have hwords : Text.words w = [w] := Text.words_of_solid hw hsolid
          by_cases hrest : Text.words rest = []
          · rw [Text.collapse, Text.words_append hc, hwords, Text.collapse, hrest,
              List.append_nil, List.intercalate_singleton, List.intercalate_nil, lexFrom,
              join_nil_right]
          · rw [Text.collapse_append (by simp [hwords]) hrest hc,
              Text.collapse_of_solid hw hsolid, happend rfl]

/-! ### The tokens of an expression -/

theorem looksLikeCall_of_not_mem {t : Text} (h : '(' ∉ t) :
  looksLikeCall t = false
  := by
  induction t with
  | nil => rfl
  | cons c t ih =>
      obtain ⟨hc, ht⟩ : '(' ≠ c ∧ '(' ∉ t := by simpa using h
      have hcall : Text.hasPrefix ['('] (Text.trimLeft (t.dropWhile isWord)) = false := by
        apply Text.hasPrefix_of_not_mem
        intro hmem
        apply ht
        apply (List.dropWhile_suffix isWord).subset
        apply (List.dropWhile_suffix isBlank).subset hmem
      rw [looksLikeCall, hcall, ih ht]
      simp

theorem any_isUnsupportedOp_eq_false_iff {t : Text} :
  t.any isUnsupportedOp = false ↔ '/' ∉ t ∧ '%' ∉ t
  := by
  rw [List.any_eq_false]
  constructor
  · intro h
    exact ⟨fun hslash => h '/' hslash rfl, fun hpercent => h '%' hpercent rfl⟩
  · rintro ⟨hslash, hpercent⟩ c hc hop
    have hcases : c = '/' ∨ c = '%' := by simpa [isUnsupportedOp] using hop
    rcases hcases with rfl | rfl
    · exact hslash hc
    · exact hpercent hc

/-- An expression without comments and parentheses has the same tokens as its collapse. -/
theorem tokenize_collapse {t : Text} (hslash : '/' ∉ t) (hparen : '(' ∉ t) :
  tokenize (Text.collapse t) = tokenize t
  := by
  have hslash' : '/' ∉ Text.collapse t := by rwa [Text.mem_collapse rfl]
  have hparen' : '(' ∉ Text.collapse t := by rwa [Text.mem_collapse rfl]
  have hop : (Text.collapse t).any isUnsupportedOp = t.any isUnsupportedOp := by
    apply Text.any_collapse
    intro c hc
    simp only [isUnsupportedOp, Bool.or_eq_true, beq_iff_eq] at hc
    rcases hc with rfl | rfl
    · rfl
    · rfl
  rw [tokenize, tokenize, Header.stripComments_of_not_mem hslash,
    Header.stripComments_of_not_mem hslash', hop, looksLikeCall_of_not_mem hparen,
    looksLikeCall_of_not_mem hparen', lexFrom_collapse]

/-! ### Token characters -/

/-- Whether a character can stand in a token. -/
def isTokenChar (c : Char) : Bool :=
  isWord c || isDecimal c || isHex c || c == '(' || c == ')' || (Op.ofSign? c).isSome

theorem isTokenChar_of_mem_takeWhile {p : Char → Bool} (hp : ∀ c, p c → isTokenChar c)
    {t : Text} {c : Char} (hc : c ∈ t.takeWhile p) :
  isTokenChar c
  := hp c (List.mem_takeWhile_imp hc)

theorem exists_of_afterSuffix? {t rest : Text} (h : afterSuffix? t = some rest) :
  ∃ front, t = front ++ rest ∧ ∀ c ∈ front, isTokenChar c
  := by
  rw [afterSuffix?, Option.ite_none_right_eq_some] at h
  obtain ⟨-, hrest⟩ := h
  obtain rfl := Option.some.inj hrest
  use t.takeWhile isWord, List.takeWhile_append_dropWhile.symm
  intro c hc
  apply isTokenChar_of_mem_takeWhile _ hc
  simp +contextual [isTokenChar]

theorem exists_of_takeHex? {c : Char} {t digits rest : Text}
    (h : takeHex? (c :: t) = some (digits, rest)) :
  ∃ front, t = front ++ rest ∧ ∀ d ∈ front, isTokenChar d
  := by
  match t with
  | [] => simp [takeHex?] at h
  | x :: t =>
      by_cases hc : c = '0'
      · subst hc
        simp only [takeHex?, Option.ite_none_right_eq_some, Option.some.injEq, Prod.mk.injEq,
          Bool.and_eq_true, Bool.or_eq_true, beq_iff_eq] at h
        obtain ⟨⟨hx, -⟩, -, rfl⟩ := h
        use x :: t.takeWhile isHex
        constructor
        · rw [List.cons_append, List.takeWhile_append_dropWhile]
        · intro d hd
          rcases List.mem_cons.mp hd with rfl | hd
          · rcases hx with rfl | rfl
            · rfl
            · rfl
          · apply isTokenChar_of_mem_takeWhile _ hd
            simp +contextual [isTokenChar]
      · simp [takeHex?, hc] at h

/-- A literal that starts with a digit is made of token characters. -/
theorem exists_of_takeNumber? {c : Char} (hc : isDecimal c) {t rest : Text} {value : Nat}
    (h : takeNumber? (c :: t) = .ok (some (value, rest))) :
  ∃ front, t = front ++ rest ∧ ∀ d ∈ front, isTokenChar d
  := by
  rw [takeNumber?] at h
  split at h
  · rename_i digits rest' hhex
    obtain ⟨rest'', hsuffix, hrest⟩ := Option.map_eq_some_iff.mp (Except.ok.inj h)
    obtain ⟨-, rfl⟩ := Prod.mk.inj hrest
    obtain ⟨front, rfl, hfront⟩ := exists_of_takeHex? hhex
    obtain ⟨ending, rfl, hending⟩ := exists_of_afterSuffix? hsuffix
    use front ++ ending, (List.append_assoc front ending _).symm
    intro d hd
    rcases List.mem_append.mp hd with hd | hd
    · apply hfront d hd
    · apply hending d hd
  · split at h
    · simp at h
    · rename_i rest' hsuffix
      obtain ⟨value', -, h⟩ := bind_eq_ok_iff.mp h
      obtain ⟨-, rfl⟩ := Prod.mk.inj (Option.some.inj (Except.ok.inj h))
      rw [List.dropWhile_cons_of_pos hc] at hsuffix
      obtain ⟨ending, hsplit, hending⟩ := exists_of_afterSuffix? hsuffix
      use t.takeWhile isDecimal ++ ending
      constructor
      · rw [List.append_assoc, ← hsplit, List.takeWhile_append_dropWhile]
      · intro d hd
        rcases List.mem_append.mp hd with hd | hd
        · apply isTokenChar_of_mem_takeWhile _ hd
          simp +contextual [isTokenChar]
        · apply hending d hd

theorem exists_of_take? {c : Char} {t rest : Text} {token : Token}
    (h : take? (c :: t) = .ok (some (token, rest))) :
  isTokenChar c ∧ ∃ front, t = front ++ rest ∧ ∀ d ∈ front, isTokenChar d
  := by
  rw [take?] at h
  split at h
  · rename_i hc
    obtain ⟨number, hnumber, h⟩ := bind_eq_ok_iff.mp h
    obtain ⟨⟨value, rest'⟩, rfl, heq⟩ := Option.map_eq_some_iff.mp (Except.ok.inj h)
    obtain ⟨-, rfl⟩ := Prod.mk.inj heq
    use by simp [isTokenChar, hc]
    apply exists_of_takeNumber? hc hnumber
  · split at h
    · rename_i hc
      obtain ⟨-, rfl⟩ := Prod.mk.inj (Option.some.inj (Except.ok.inj h))
      use by simp [isTokenChar, hc], []
      simp
    · split at h
      · rename_i hc
        obtain ⟨-, rfl⟩ := Prod.mk.inj (Option.some.inj (Except.ok.inj h))
        use by simp [isTokenChar, hc], []
        simp
      · split at h
        · rename_i o hc
          obtain ⟨-, rfl⟩ := Prod.mk.inj (Option.some.inj (Except.ok.inj h))
          use by simp [isTokenChar, hc], []
          simp
        · obtain ⟨⟨name, rest'⟩, hname, h⟩ := Option.map_eq_some_iff.mp (Except.ok.inj h)
          obtain ⟨-, rfl⟩ := Prod.mk.inj h
          simp only [Text.takeIdent?, Option.ite_none_right_eq_some, Option.some.injEq,
            Prod.mk.injEq] at hname
          obtain ⟨hc, -, rfl⟩ := hname
          use by simp [isTokenChar, isWord_of_isIdentStart hc], t.takeWhile isWord,
            List.takeWhile_append_dropWhile.symm
          intro d hd
          apply isTokenChar_of_mem_takeWhile _ hd
          simp +contextual [isTokenChar]

theorem isTokenChar_of_lexFrom {t : Text} {skip : Nat} {tokens : List Token}
    (h : lexFrom skip t = .ok (some tokens)) :
  ∀ c ∈ t.drop skip, isBlank c ∨ isTokenChar c
  := by
  induction t generalizing skip tokens with
  | nil => simp
  | cons c t ih =>
      cases skip with
      | succ skip =>
          rw [lexFrom] at h
          apply ih h
      | zero =>
          rw [lexFrom] at h
          split at h
          · rename_i hc
            intro d hd
            rcases List.mem_cons.mp hd with rfl | hd
            · left
              exact hc
            · apply ih h d hd
          · obtain ⟨found, hfound, h⟩ := bind_eq_ok_iff.mp h
            cases found with
            | none => simp [pure, Except.pure] at h
            | some found =>
                obtain ⟨found', hlex, h⟩ := bind_eq_ok_iff.mp h
                obtain ⟨tokens', rfl, -⟩ := Option.map_eq_some_iff.mp (Except.ok.inj h)
                obtain ⟨hc, front, rfl, hfront⟩ := exists_of_take? hfound
                intro d hd
                rcases List.mem_cons.mp hd with rfl | hd
                · right
                  exact hc
                · rcases List.mem_append.mp hd with hd | hd
                  · right
                    apply hfront d hd
                  · apply ih hlex d
                    simpa using hd

/-- An expression without comments that has tokens is made of token characters and blanks. -/
theorem isTokenChar_of_tokenize {t : Text} (hslash : '/' ∉ t) {tokens : List Token}
    (h : tokenize t = .ok (some tokens)) :
  ∀ c ∈ t, isBlank c ∨ isTokenChar c
  := by
  rw [tokenize, Header.stripComments_of_not_mem hslash] at h
  split at h
  · simp at h
  · apply isTokenChar_of_lexFrom h

end Expr.Token

end ContractInterface
