import ContractInterface.Proofs.Header.Member
import ContractInterface.Proofs.Header.Statement
import ContractInterface.Proofs.Text.Word

/-!
# Written declarations

A member declaration is written as its type, a space, and the declared names: either one name with
its lengths between brackets, or names with commas between them.  Read back, it gives the type,
the names and the lengths, with blanks collapsed.  No shorter text is taken for the type: a type
has neither brackets nor a comma at its end, so what would follow the shorter type is not a list
of names.
-/

namespace ContractInterface.Header

/-! ### The text of a declaration -/

namespace Member

/-- The declared type. -/
def type : Member → Text
  | .array type _ _ => type
  | .plain type _ => type

/-- The lengths of a declared array. -/
def lengths : Member → List Text
  | .array _ _ lengths => lengths
  | .plain _ _ => []

/-- Lengths between brackets. -/
def bracketed (lengths : List Text) : Text :=
  lengths.flatMap fun length => '[' :: (length ++ [']'])

/-- The declared names as they stand after the type. -/
def declarators : Member → Text
  | .array _ name lengths => name ++ bracketed lengths
  | .plain _ names => [',', ' '].intercalate names

/-- The text of a declaration. -/
def render (m : Member) : Text :=
  m.type ++ ' ' :: m.declarators

/-- The declaration with every run of blanks in its lengths made one space. -/
def squeezed : Member → Member
  | .array type name lengths => .array type name (lengths.map Text.squeeze)
  | .plain type names => .plain type names

/-- The declaration with the blanks of its type and of its lengths collapsed. -/
def tidy : Member → Member
  | .array type name lengths => .array (Text.collapse type) name (lengths.map Text.collapse)
  | .plain type names => .plain (Text.collapse type) names

/-- The characters with a meaning of their own in declarations; they stand neither in a type nor
in a length. -/
def marks : List Char := [';', '{', '}', '[', ']', '=', '#', '/']

/-- The names of a declaration are identifiers, and there is one at least; an array has
lengths. -/
def Named : Member → Prop
  | .array _ name lengths => Text.isIdent name ∧ lengths ≠ []
  | .plain _ names => names ≠ [] ∧ ∀ name ∈ names, Text.isIdent name

instance (m : Member) : Decidable m.Named :=
  match m with
  | .array _ _ _ => inferInstanceAs (Decidable (_ ∧ _))
  | .plain _ _ => inferInstanceAs (Decidable (_ ∧ _))

end Member

open Member

theorem Member.isIdent_of_named {m : Member} (h : m.Named) :
  ∀ name ∈ m.names, Text.isIdent name
  := by
  cases m with
  | array type name lengths =>
      intro n hn
      obtain rfl := List.mem_singleton.mp hn
      exact h.1
  | plain type names => exact h.2

theorem mem_intercalate {names : List Text} (h : ∀ name ∈ names, Text.isIdent name) {c : Char}
    (hc : c ∈ [',', ' '].intercalate names) :
  isWord c ∨ c ∈ [',', ' ']
  := by
  induction names with
  | nil => contradiction
  | cons name names ih =>
      have hname := Text.isWord_of_isIdent (h name List.mem_cons_self)
      cases names with
      | nil =>
          left
          apply hname c (by simpa using hc)
      | cons name' names =>
          rw [List.intercalate_cons_cons, List.append_assoc] at hc
          rcases List.mem_append.mp hc with hc | hc
          · left
            apply hname c hc
          · rcases List.mem_append.mp hc with hc | hc
            · right
              exact hc
            · apply ih (fun n hn => h n (List.mem_cons_of_mem name hn)) hc

/-- The characters after the type. -/
theorem mem_declarators {m : Member} (h : m.Named) {c : Char} (hc : c ∈ m.declarators) :
  isWord c ∨ c ∈ [',', ' '] ∨ ∃ length ∈ m.lengths, c ∈ '[' :: (length ++ [']'])
  := by
  cases m with
  | array type name lengths =>
      rcases List.mem_append.mp hc with hc | hc
      · left
        apply Text.isWord_of_isIdent h.1 c hc
      · right
        right
        obtain ⟨length, hlength, hc⟩ := List.mem_flatMap.mp hc
        use length, hlength, hc
  | plain type names =>
      rcases mem_intercalate h.2 hc with hc | hc
      · left
        exact hc
      · right
        left
        exact hc

theorem Member.mem_render_of_mem_lengths {m : Member} {length : Text} (h : length ∈ m.lengths)
    {c : Char} (hc : c ∈ length) :
  c ∈ m.render
  := by
  cases m with
  | array type name lengths =>
      have hmem : c ∈ bracketed lengths := by
        apply List.mem_flatMap.mpr
        use length, h
        simp [hc]
      simp [render, declarators, hmem]
  | plain type names => contradiction

/-! ### Collapsing a declaration -/

/-- The text after the type starts with an identifier. -/
theorem exists_declarators_eq {m : Member} (h : m.Named) :
  ∃ c t, m.declarators = c :: t ∧ isIdentStart c
  := by
  have hstart : ∀ {name : Text}, Text.isIdent name → ∃ c t, name = c :: t ∧ isIdentStart c := by
    intro name hname
    obtain ⟨c, t, rfl⟩ := List.exists_cons_of_ne_nil (Text.ne_nil_of_isIdent hname)
    simp only [Text.isIdent, Bool.and_eq_true] at hname
    use c, t, rfl, hname.1
  cases m with
  | array type name lengths =>
      obtain ⟨c, t, rfl, hc⟩ := hstart h.1
      use c, t ++ bracketed lengths, rfl, hc
  | plain type names =>
      obtain ⟨name, names, rfl⟩ := List.exists_cons_of_ne_nil h.1
      obtain ⟨c, t, rfl, hc⟩ := hstart (h.2 name List.mem_cons_self)
      use c, [',', ' '].intercalate (t :: names), List.intercalate_cons_cons_left, hc

theorem words_declarators {m : Member} (h : m.Named) :
  Text.words m.declarators ≠ []
  := by
  obtain ⟨c, t, ht, hc⟩ := exists_declarators_eq h
  rw [ht]
  apply Text.words_cons_ne_nil (isBlank_of_isWord (isWord_of_isIdentStart hc))

theorem collapse_intercalate {names : List Text} (h : ∀ name ∈ names, Text.isIdent name) :
  Text.collapse ([',', ' '].intercalate names) = [',', ' '].intercalate names
  := by
  induction names with
  | nil => rfl
  | cons name names ih =>
      have hname := h name List.mem_cons_self
      have hsolid := Text.solid_of_isIdent hname
      cases names with
      | nil =>
          rw [List.intercalate_singleton]
          apply Text.collapse_of_solid (Text.ne_nil_of_isIdent hname) hsolid
      | cons name' names =>
          have ih := ih fun n hn => h n (List.mem_cons_of_mem name hn)
          have hcomma : ∀ c ∈ name ++ [','], isBlank c = false := by
            intro c hc
            rcases List.mem_append.mp hc with hc | hc
            · apply hsolid c hc
            · obtain rfl := List.mem_singleton.mp hc
              rfl
          have hsplit : [',', ' '].intercalate (name :: name' :: names) =
              (name ++ [',']) ++ ' ' :: [',', ' '].intercalate (name' :: names) := by
            simp [List.intercalate_cons_cons]
          have hwords : Text.words ([',', ' '].intercalate (name' :: names)) ≠ [] := by
            apply words_declarators (m := .plain [] (name' :: names))
            use List.cons_ne_nil name' names
            intro n hn
            apply h n (List.mem_cons_of_mem name hn)
          rw [hsplit, Text.collapse_append (by simp [Text.words_of_solid _ hcomma]) hwords rfl,
            ih, Text.collapse_of_solid (by simp) hcomma]

theorem Member.named_squeezed {m : Member} (h : m.Named) :
  m.squeezed.Named
  := by
  cases m with
  | array type name lengths => exact ⟨h.1, by simpa using h.2⟩
  | plain type names => exact h

theorem exists_bracketed_eq {lengths : List Text} (h : lengths ≠ []) :
  ∃ t, bracketed lengths = '[' :: (t ++ [']'])
  := by
  induction lengths with
  | nil => contradiction
  | cons length lengths ih =>
      cases lengths with
      | nil =>
          use length
          simp [bracketed]
      | cons length' lengths =>
          obtain ⟨t, ht⟩ := ih (List.cons_ne_nil length' lengths)
          use length ++ ']' :: '[' :: t
          rw [bracketed, List.flatMap_cons, ← bracketed, ht]
          simp

theorem squeeze_bracketed (lengths : List Text) :
  Text.squeeze (bracketed lengths) = bracketed (lengths.map Text.squeeze)
  := by
  induction lengths with
  | nil => rfl
  | cons length lengths ih =>
      rw [bracketed, List.flatMap_cons, List.cons_append, List.append_assoc,
        List.singleton_append, Text.squeeze_cons_solid rfl, Text.squeeze_append_solid rfl,
        ← bracketed, ih]
      simp [bracketed]

theorem collapse_append_bracketed {name : Text} (hname : Text.isIdent name)
    {lengths : List Text} (h : lengths ≠ []) :
  Text.collapse (name ++ bracketed lengths) = name ++ bracketed (lengths.map Text.squeeze)
  := by
  have hsolid := Text.solid_of_isIdent hname
  have hsqueeze : Text.squeeze (name ++ bracketed lengths) =
      name ++ bracketed (lengths.map Text.squeeze) := by
    obtain ⟨t, ht⟩ := exists_bracketed_eq h
    rw [← squeeze_bracketed, ht, Text.squeeze_append_solid rfl, Text.squeeze_of_solid hsolid,
      Text.squeeze_cons_solid rfl]
  have hne : lengths.map Text.squeeze ≠ [] := by simpa using h
  obtain ⟨t, ht⟩ := exists_bracketed_eq hne
  obtain ⟨c, name, rfl⟩ := List.exists_cons_of_ne_nil (Text.ne_nil_of_isIdent hname)
  rw [← Text.trim_squeeze, hsqueeze, ht, List.cons_append, Text.trim_cons_solid (by simp [hsolid]),
    ← List.cons_append, ← List.append_assoc, Text.trimRight_append_solid rfl]

theorem collapse_declarators {m : Member} (h : m.Named) :
  Text.collapse m.declarators = m.squeezed.declarators
  := by
  cases m with
  | array type name lengths => apply collapse_append_bracketed h.1 h.2
  | plain type names => apply collapse_intercalate h.2

/-- To collapse a declaration is to collapse its type and to squeeze its lengths. -/
theorem collapse_render {m : Member} (h : m.Named) (htype : Text.words m.type ≠ []) :
  Text.collapse m.render = Text.collapse m.type ++ ' ' :: m.squeezed.declarators
  := by
  rw [render, Text.collapse_append htype (words_declarators h) rfl, collapse_declarators h]

/-! ### The type of a declaration -/

namespace Statement

/-- A type that leaves a text of the wanted form is found, if no shorter type does. -/
theorem afterType?_append {α : Type} {form : Text → Option α} {type rest : Text} {a : α}
    (hne : type ≠ []) (hform : form rest = some a)
    (hshort : ∀ front back, type = front ++ back → front ≠ [] → back ≠ [] →
      form (back ++ rest) = none) :
  afterType? form (type ++ rest) = some (type, a)
  := by
  induction type with
  | nil => contradiction
  | cons c type ih =>
      cases type with
      | nil => rw [List.cons_append, List.nil_append, afterType?, hform]
      | cons d type =>
          have hnone := hshort [c] (d :: type) rfl (by simp) (by simp)
          have ih := ih (List.cons_ne_nil d type) fun front back heq _ hback =>
            hshort (c :: front) back (by rw [heq]; rfl) (List.cons_ne_nil c front) hback
          rw [List.cons_append, afterType?, hnone, ih]
          rfl

/-- If a text goes on with a solid character, then so does what follows its first blanks. -/
theorem exists_of_afterBlanks? {x : Char} (hx : isBlank x = false) {back rest t : Text}
    (h : Text.afterBlanks? (back ++ x :: rest) = some t) :
  ∃ back', t = back' ++ x :: rest ∧ ∀ c ∈ back', c ∈ back
  := by
  cases back with
  | nil => simp [Text.afterBlanks?, hx] at h
  | cons c back =>
      simp only [List.cons_append, Text.afterBlanks?, Option.ite_none_right_eq_some,
        Option.some.injEq] at h
      obtain ⟨-, rfl⟩ := h
      use Text.trimLeft back, Text.trimLeft_append_solid hx back rest
      intro d hd
      apply List.mem_cons_of_mem c ((List.dropWhile_suffix isBlank).subset hd)

theorem afterBlanks?_space {c : Char} (h : isBlank c = false) (t : Text) :
  Text.afterBlanks? (' ' :: c :: t) = some (c :: t)
  := by
  have hspace : isBlank ' ' = true := rfl
  rw [Text.afterBlanks?, if_pos hspace, Text.trimLeft_cons_solid h]

theorem suffix_of_afterBlanks? {t rest : Text} (h : Text.afterBlanks? t = some rest) :
  rest <:+ t
  := by
  cases t with
  | nil => contradiction
  | cons c t =>
      simp only [Text.afterBlanks?, Option.ite_none_right_eq_some, Option.some.injEq] at h
      obtain ⟨-, rfl⟩ := h
      apply (List.dropWhile_suffix isBlank).trans (List.suffix_cons c t)

theorem suffix_of_takeIdent? {t name rest : Text} (h : Text.takeIdent? t = some (name, rest)) :
  rest <:+ t
  := by
  cases t with
  | nil => contradiction
  | cons c t =>
      simp only [Text.takeIdent?, Option.ite_none_right_eq_some, Option.some.injEq,
        Prod.mk.injEq] at h
      obtain ⟨-, -, rfl⟩ := h
      apply (List.dropWhile_suffix isWord).trans (List.suffix_cons c t)

/-! ### Arrays -/

theorem lengths?_append {length : Text} (h : ']' ∉ length) (current rest : Text) :
  lengths? (some current) (length ++ ']' :: rest) =
    (lengths? none rest).map (Text.trim (current.reverse ++ length) :: ·)
  := by
  induction length generalizing current with
  | nil => rw [List.nil_append, lengths?, if_pos rfl, List.append_nil]
  | cons c length ih =>
      obtain ⟨hc, hlength⟩ : ']' ≠ c ∧ ']' ∉ length := by simpa using h
      rw [List.cons_append, lengths?, if_neg hc.symm, ih hlength, List.reverse_cons,
        List.append_assoc]
      rfl

theorem lengths?_bracketed {lengths : List Text} (h : ∀ length ∈ lengths, ']' ∉ length) :
  lengths? none (bracketed lengths) = some (lengths.map Text.trim)
  := by
  induction lengths with
  | nil => rfl
  | cons length lengths ih =>
      have ih := ih fun l hl => h l (List.mem_cons_of_mem length hl)
      have hopen : isBlank '[' = false := rfl
      rw [bracketed, List.flatMap_cons, ← bracketed, List.cons_append, List.append_assoc,
        List.singleton_append, lengths?, hopen, if_neg (by simp), if_pos rfl,
        lengths?_append (h length List.mem_cons_self), ih]
      rfl

/-- Lengths start with a bracket. -/
theorem lengths?_eq_none {x : Char} (hx : isBlank x = false) (hbracket : x ≠ '[')
    {front : Text} (hfront : '[' ∉ front) (rest : Text) :
  lengths? none (front ++ x :: rest) = none
  := by
  induction front with
  | nil => rw [List.nil_append, lengths?, hx, if_neg (by simp), if_neg hbracket]
  | cons c front ih =>
      obtain ⟨hc, hfront⟩ : '[' ≠ c ∧ '[' ∉ front := by simpa using hfront
      rw [List.cons_append, lengths?]
      split
      · apply ih hfront
      · rw [if_neg hc.symm]

/-- Lengths end with a bracket. -/
theorem lengths?_of_not_mem {t : Text} (h : ']' ∉ t) :
  (∀ current, lengths? (some current) t = none) ∧
    ∀ lengths, lengths? none t = some lengths → lengths = []
  := by
  induction t with
  | nil => simp [lengths?]
  | cons c t ih =>
      obtain ⟨hc, ht⟩ : ']' ≠ c ∧ ']' ∉ t := by simpa using h
      obtain ⟨hinside, houtside⟩ := ih ht
      constructor
      · intro current
        rw [lengths?, if_neg hc.symm, hinside]
      · intro lengths hlengths
        rw [lengths?] at hlengths
        split at hlengths
        · apply houtside lengths hlengths
        · split at hlengths
          · rw [hinside] at hlengths
            contradiction
          · contradiction

theorem mem_of_arrayParts? {t name : Text} {lengths : List Text}
    (h : arrayParts? t = some (name, lengths)) :
  ']' ∈ t
  := by
  simp only [arrayParts?, Option.bind_eq_bind, Option.bind_eq_some_iff] at h
  obtain ⟨u, hu, ⟨ident, v⟩, hv, ls, hls, h⟩ := h
  have hsuffix : v <:+ t := (suffix_of_takeIdent? hv).trans (suffix_of_afterBlanks? hu)
  by_contra hmem
  have hmem : ']' ∉ v := fun hv => hmem (hsuffix.subset hv)
  obtain rfl := (lengths?_of_not_mem hmem).2 ls hls
  contradiction

/-- A name with lengths is read back. -/
theorem arrayParts?_bracketed {name : Text} (hname : Text.isIdent name)
    {lengths : List Text} (hne : lengths ≠ []) (h : ∀ length ∈ lengths, ']' ∉ length) :
  arrayParts? (' ' :: (name ++ bracketed lengths)) = some (name, lengths.map Text.trim)
  := by
  have hblanks : Text.afterBlanks? (' ' :: (name ++ bracketed lengths)) =
      some (name ++ bracketed lengths) := by
    obtain ⟨c, name, rfl⟩ := List.exists_cons_of_ne_nil (Text.ne_nil_of_isIdent hname)
    have hc := Text.solid_of_isIdent hname c List.mem_cons_self
    apply afterBlanks?_space hc
  have hident : Text.takeIdent? (name ++ bracketed lengths) = some (name, bracketed lengths) := by
    apply Text.takeIdent?_append hname
    obtain ⟨t, ht⟩ := exists_bracketed_eq hne
    rw [ht]
    rfl
  obtain ⟨length, lengths, rfl⟩ := List.exists_cons_of_ne_nil hne
  simp [arrayParts?, hblanks, hident, lengths?_bracketed h]

/-- What is left of a type is not taken for the name of an array. -/
theorem arrayParts?_eq_none {x : Char} (hx : isBlank x = false) {back : Text}
    (hback : '[' ∉ back ++ [x]) {c : Char} (hc : isIdentStart c) (rest : Text) :
  arrayParts? (back ++ x :: ' ' :: c :: rest) = none
  := by
  by_contra hsome
  obtain ⟨⟨name, lengths⟩, h⟩ := Option.ne_none_iff_exists'.mp hsome
  simp only [arrayParts?, Option.bind_eq_bind, Option.bind_eq_some_iff] at h
  obtain ⟨u, hu, ⟨ident, v⟩, hv, ls, hls, -⟩ := h
  obtain ⟨back', rfl, hsub⟩ := exists_of_afterBlanks? hx hu
  obtain ⟨d, front, hfront⟩ : ∃ d front, back' ++ [x] = d :: front :=
    List.exists_cons_of_ne_nil (by simp)
  -- The name ends before the space after the type.
  have hspace : ∀ d ∈ (' ' :: c :: rest).head?, isWord d = false := by
    simp only [List.head?_cons, Option.mem_some_iff, forall_eq']
    rfl
  obtain ⟨-, hdrop⟩ := Text.takeWhile_append_stop hspace front
  have hsplit : back' ++ x :: ' ' :: c :: rest = d :: (front ++ ' ' :: c :: rest) := by
    rw [← List.cons_append, ← hfront, List.append_assoc]
    rfl
  rw [hsplit, Text.takeIdent?, Option.ite_none_right_eq_some, Option.some.injEq,
    Prod.mk.injEq, hdrop] at hv
  obtain ⟨-, -, rfl⟩ := hv
  have hbracket : '[' ∉ front.dropWhile isWord ++ [' '] := by
    intro hmem
    rcases List.mem_append.mp hmem with hmem | hmem
    · have hmem : '[' ∈ back' ++ [x] := by
        rw [hfront]
        apply List.mem_cons_of_mem d ((List.dropWhile_suffix isWord).subset hmem)
      apply hback
      rcases List.mem_append.mp hmem with hmem | hmem
      · apply List.mem_append_left [x] (hsub '[' hmem)
      · apply List.mem_append_right back hmem
    · simp at hmem
  have hnone := lengths?_eq_none (isBlank_of_isWord (isWord_of_isIdentStart hc))
    (by rintro rfl; contradiction) hbracket rest
  rw [List.append_assoc, List.singleton_append, hls] at hnone
  contradiction

/-! ### Plain members -/

theorem splitWhere_cons {p : Char → Bool} {c : Char} (hc : p c = false) {t piece : Text}
    {pieces : List Text} (h : Text.splitWhere p t = piece :: pieces) :
  Text.splitWhere p (c :: t) = (c :: piece) :: pieces
  := by
  rw [Text.splitWhere, if_neg (by simp [hc]), h]

/-- A text that is put in front of another one and does not end with a separator goes on in its
first piece. -/
theorem exists_mem_splitWhere_append {p : Char → Bool} {x : Char} (hx : p x = false)
    {rest piece : Text} {pieces : List Text} (h : Text.splitWhere p rest = piece :: pieces)
    (front : Text) :
  ∃ front', front' ++ x :: piece ∈ Text.splitWhere p (front ++ x :: rest)
  := by
  induction front with
  | nil =>
      use []
      simp [splitWhere_cons hx h]
  | cons c front ih =>
      obtain ⟨front', hmem⟩ := ih
      by_cases hc : p c
      · use front'
        rw [List.cons_append, Text.splitWhere, if_pos hc]
        apply List.mem_cons_of_mem [] hmem
      · have hc : p c = false := by simpa using hc
        rcases hsplit : Text.splitWhere p (front ++ x :: rest) with _ | ⟨first, others⟩
        · simp [hsplit] at hmem
        · rw [List.cons_append, splitWhere_cons hc hsplit]
          rw [hsplit] at hmem
          rcases List.mem_cons.mp hmem with rfl | hmem
          · use c :: front', by simp
          · use front', List.mem_cons_of_mem _ hmem

theorem splitWhere_intercalate {name : Text} {names : List Text}
    (h : ∀ n ∈ name :: names, Text.isIdent n) :
  Text.splitWhere (· == ',') ([',', ' '].intercalate (name :: names)) =
    name :: names.map (' ' :: ·)
  := by
  have hsingle : ∀ n, Text.isIdent n → Text.splitWhere (· == ',') n = [n] := by
    intro n hn
    apply Text.splitWhere_of_forall
    intro c hc
    have hword := Text.isWord_of_isIdent hn c hc
    rw [beq_eq_false_iff_ne]
    rintro rfl
    contradiction
  induction names generalizing name with
  | nil => rw [List.intercalate_singleton, hsingle name (by simp [h]), List.map_nil]
  | cons name' names ih =>
      have ih := ih fun n hn => h n (List.mem_cons_of_mem name hn)
      have hsplit : [',', ' '].intercalate (name :: name' :: names) =
          name ++ ',' :: (' ' :: [',', ' '].intercalate (name' :: names)) := by
        simp [List.intercalate_cons_cons]
      rw [hsplit, Text.splitWhere_append rfl, hsingle name (h name List.mem_cons_self),
        splitWhere_cons rfl ih]
      rfl

/-- Names with commas between them are read back. -/
theorem plainNames?_intercalate {names : List Text} (hne : names ≠ [])
    (h : ∀ name ∈ names, Text.isIdent name) :
  plainNames? (' ' :: [',', ' '].intercalate names) = some names
  := by
  obtain ⟨c, t, ht, hc⟩ := exists_declarators_eq (m := .plain [] names) ⟨hne, h⟩
  have hblanks : Text.afterBlanks? (' ' :: [',', ' '].intercalate names) =
      some ([',', ' '].intercalate names) := by
    rw [declarators] at ht
    rw [ht]
    apply afterBlanks?_space (isBlank_of_isWord (isWord_of_isIdentStart hc))
  have hnames : (Text.splitWhere (· == ',') ([',', ' '].intercalate names)).map Text.trim =
      names := by
    obtain ⟨name, names, rfl⟩ := List.exists_cons_of_ne_nil hne
    have htrim : ∀ n ∈ name :: names, Text.trim n = n := fun n hn =>
      Text.trim_of_solid (Text.solid_of_isIdent (h n hn))
    rw [splitWhere_intercalate h, List.map_cons, List.map_map, htrim name List.mem_cons_self,
      List.map_congr_left (g := id), List.map_id]
    intro n hn
    apply htrim n (List.mem_cons_of_mem name hn)
  simp only [plainNames?, hblanks, Option.bind_eq_bind, Option.bind_some, hnames]
  rw [if_pos (List.all_eq_true.mpr h)]

/-- What is left of a type is not taken for the name of a plain member. -/
theorem plainNames?_eq_none {x : Char} (hx : isBlank x = false) (hcomma : x ≠ ',')
    {names : List Text} (hne : names ≠ []) (h : ∀ name ∈ names, Text.isIdent name)
    (back : Text) :
  plainNames? (back ++ x :: ' ' :: [',', ' '].intercalate names) = none
  := by
  obtain ⟨name, names, rfl⟩ := List.exists_cons_of_ne_nil hne
  by_contra hsome
  obtain ⟨names', h'⟩ := Option.ne_none_iff_exists'.mp hsome
  simp only [plainNames?, Option.bind_eq_bind, Option.bind_eq_some_iff,
    Option.ite_none_right_eq_some, List.all_eq_true] at h'
  obtain ⟨u, hu, hidents, -⟩ := h'
  obtain ⟨back', rfl, -⟩ := exists_of_afterBlanks? hx hu
  have hpieces : Text.splitWhere (· == ',') (' ' :: [',', ' '].intercalate (name :: names)) =
      (' ' :: name) :: names.map (' ' :: ·) := splitWhere_cons rfl (splitWhere_intercalate h)
  obtain ⟨front, hmem⟩ := exists_mem_splitWhere_append (by simpa using hcomma) hpieces back'
  -- This piece has a blank between the type and the first name.
  have hident := hidents _ (List.mem_map_of_mem hmem)
  have hname := h name List.mem_cons_self
  obtain ⟨init, y, rfl⟩ := (List.eq_nil_or_concat' name).resolve_left
    (Text.ne_nil_of_isIdent hname)
  have hy := Text.solid_of_isIdent hname y (by simp)
  rw [← List.cons_append, Text.trim_append_solid hx hy] at hident
  have hspace := Text.solid_of_isIdent hident ' ' (by simp)
  contradiction

/-! ### Reading a declaration back -/

section LastChar

variable {front : Text} {x : Char} (hx : isBlank x = false)

/-- A shorter type would leave the last character of the type behind. -/
theorem exists_of_eq_append {pre back : Text} (h : front ++ [x] = pre ++ back) (hne : back ≠ []) :
  ∃ init, back = init ++ [x] ∧ ∀ c ∈ init, c ∈ front
  := by
  obtain ⟨init, y, rfl⟩ := (List.eq_nil_or_concat' back).resolve_left hne
  rw [← List.append_assoc] at h
  obtain ⟨rfl, hxy⟩ := List.append_inj' h rfl
  obtain rfl := List.singleton_inj.mp hxy
  use init, rfl
  intro c hc
  apply List.mem_append_right pre hc

include hx

theorem member?_array (hfront : '[' ∉ front ++ [x]) {name : Text} (hname : Text.isIdent name)
    {lengths : List Text} (hne : lengths ≠ []) (h : ∀ length ∈ lengths, ']' ∉ length) :
  member? (front ++ [x] ++ ' ' :: (name ++ bracketed lengths)) =
    some (.array (front ++ [x]) name (lengths.map Text.trim))
  := by
  have harray : afterType? arrayParts? (front ++ [x] ++ ' ' :: (name ++ bracketed lengths)) =
      some (front ++ [x], name, lengths.map Text.trim) := by
    apply afterType?_append (by simp) (arrayParts?_bracketed hname hne h)
    intro pre back heq _ hback
    obtain ⟨init, rfl, hinit⟩ := exists_of_eq_append heq hback
    obtain ⟨c, t, ht, hc⟩ := exists_declarators_eq (m := .array [] name lengths) ⟨hname, hne⟩
    rw [declarators] at ht
    rw [ht, List.append_assoc, List.singleton_append]
    apply arrayParts?_eq_none hx _ hc
    intro hmem
    apply hfront
    rcases List.mem_append.mp hmem with hmem | hmem
    · apply List.mem_append_left [x] (hinit '[' hmem)
    · apply List.mem_append_right front hmem
  rw [member?, harray]

theorem member?_plain (hfront : ']' ∉ front ++ [x]) (hcomma : x ≠ ',') {names : List Text}
    (hne : names ≠ []) (h : ∀ name ∈ names, Text.isIdent name) :
  member? (front ++ [x] ++ ' ' :: [',', ' '].intercalate names) =
    some (.plain (front ++ [x]) names)
  := by
  have harray : afterType? arrayParts? (front ++ [x] ++ ' ' :: [',', ' '].intercalate names) =
      none := by
    by_contra hsome
    obtain ⟨⟨type, name, lengths⟩, harray⟩ := Option.ne_none_iff_exists'.mp hsome
    obtain ⟨rest, heq, hparts⟩ := afterType?_eq_some harray
    have hmem : ']' ∈ front ++ [x] ++ ' ' :: [',', ' '].intercalate names := by
      rw [heq]
      apply List.mem_append_right type (mem_of_arrayParts? hparts)
    rcases List.mem_append.mp hmem with hmem | hmem
    · contradiction
    · rcases List.mem_cons.mp hmem with hmem | hmem
      · contradiction
      · have hclose := mem_intercalate h hmem
        revert hclose
        decide
  have hplain : afterType? plainNames? (front ++ [x] ++ ' ' :: [',', ' '].intercalate names) =
      some (front ++ [x], names) := by
    apply afterType?_append (by simp) (plainNames?_intercalate hne h)
    intro pre back heq _ hback
    obtain ⟨init, rfl, -⟩ := exists_of_eq_append heq hback
    rw [List.append_assoc, List.singleton_append]
    apply plainNames?_eq_none hx hcomma hne h
  rw [member?, harray, hplain]
  rfl

end LastChar

/-- The text of a declaration gives the declaration, with blanks collapsed. -/
theorem member?_collapse_render {m : Member} (hnamed : m.Named)
    (hwords : Text.words m.type ≠ []) (htype : ∀ c ∈ m.type, c ∉ marks)
    (hlast : m.lengths = [] → (Text.collapse m.type).getLast? ≠ some ',')
    (hlengths : ∀ length ∈ m.lengths, ∀ c ∈ length, c ∉ marks) :
  member? (Text.collapse m.render) = some m.tidy
  := by
  obtain ⟨front, x, hcollapse, hx⟩ := Text.exists_collapse_eq hwords
  have hmarks : ∀ c ∈ marks, isBlank c = false → c ∉ front ++ [x] := by
    intro c hc hsolid hmem
    rw [← hcollapse, Text.mem_collapse hsolid] at hmem
    apply htype c hmem hc
  rw [collapse_render hnamed hwords, hcollapse]
  cases m with
  | array type name lengths =>
      have hclose : ∀ length ∈ lengths.map Text.squeeze, ']' ∉ length := by
        intro squeezed hsqueezed
        obtain ⟨length, hlength, rfl⟩ := List.mem_map.mp hsqueezed
        rw [Text.mem_squeeze rfl]
        intro hmem
        apply hlengths length hlength ']' hmem
        decide
      have hne : lengths.map Text.squeeze ≠ [] := by simpa using hnamed.2
      rw [squeezed, declarators, member?_array hx (hmarks '[' (by decide) rfl) hnamed.1 hne hclose,
        List.map_map, tidy, ← hcollapse]
      congr 2
      apply List.map_congr_left
      intro length _
      apply Text.trim_squeeze
  | plain type names =>
      have hcomma : x ≠ ',' := by
        rintro rfl
        simp [hcollapse, Member.lengths] at hlast
      rw [squeezed, declarators,
        member?_plain hx (hmarks ']' (by decide) rfl) hcomma hnamed.1 hnamed.2, tidy, ← hcollapse]
      rfl

end Statement

end ContractInterface.Header
