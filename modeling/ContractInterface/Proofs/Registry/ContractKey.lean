import ContractInterface.Proofs.PublicKey
import ContractInterface.Proofs.Registry.Documents
import ContractInterface.Proofs.Registry.SingleFile

/-!
# Published keys

A document says which contract it describes by the index of the contract and by its key.  Both
ways to compile a header take the index from the list of contracts and derive the key from it, and
they stop if the number there is no index.  So a document has a key exactly if it has an index, and
the key identifies the contract with that index.
-/

namespace ContractInterface

/-! ### Documents with keys -/

/-- An identity without index and key, or with an index and the key that identifies the contract
with that index. -/
def Contract.Keyed (c : Contract) : Prop :=
  (c.index = none ∧ c.publicKeyHex = none) ∨
  ∃ (n : Nat) (key : String), c.index = some n ∧ c.publicKeyHex = some key ∧
    n < PublicKey.indexBound ∧ PublicKey.Identifies key n

/-- A document in which a contract has a key exactly if it has an index, and then the key
identifies the contract with that index. -/
def Json.Keyed (document : Json) : Prop :=
  ∃ contract, document.member? "contract" = some contract ∧
    ((contract.member? "contractIndex" = none ∧ contract.member? "contractPublicKeyHex" = none) ∨
    ∃ (n : Nat) (key : String), contract.member? "contractIndex" = some (.int n) ∧
      contract.member? "contractPublicKeyHex" = some (.text key) ∧
      n < PublicKey.indexBound ∧ PublicKey.Identifies key n)

theorem Contract.Keyed.toJson {d : Document TypeDesc} (h : d.contract.Keyed) :
  d.toJson.Keyed
  := by
  refine ⟨d.contract.toJson, rfl, ?_⟩
  rcases h with ⟨hindex, hkey⟩ | ⟨n, key, hindex, hkey, hbound, hidentifies⟩
  · left
    rw [Contract.toJson, hindex, hkey]
    cases d.contract.id with
    | none => exact ⟨rfl, rfl⟩
    | some id => exact ⟨rfl, rfl⟩
  · right
    refine ⟨n, key, ?_, ?_, hbound, hidentifies⟩
    · rw [Contract.toJson, hindex]
      rfl
    · rw [Contract.toJson, hindex, hkey]
      rfl

theorem keyed_of_keyOf {index : Option Nat} {key : Option String} (h : keyOf index = .ok key)
    (name : String) (id : Option String) :
  Contract.Keyed ⟨name, index.map Int.ofNat, key, id⟩
  := by
  cases index with
  | none =>
      obtain rfl := Except.ok.inj h
      exact .inl ⟨rfl, rfl⟩
  | some n =>
      obtain ⟨hex, hhex, rfl⟩ := map_eq_ok_iff.mp h
      obtain ⟨m, hbound, hn, rfl⟩ := PublicKey.ofJson_eq_ok_iff.mp hhex
      obtain rfl : n = m := by simpa using hn
      exact .inr ⟨n, _, rfl, rfl, hbound, PublicKey.identifies_hex hbound⟩

/-- A header that is compiled with an index and its key has a document that says so. -/
theorem keyed_of_documentOf {settings : CompilerSettings} {options : CompileOptions}
    {source : Text} {d : Document TypeDesc} (h : documentOf settings options source = .ok d)
    {index : Option Nat} (hindex : options.contractIndex = index.map Int.ofNat)
    (hkey : keyOf index = .ok options.contractPublicKeyHex) :
  d.toJson.Keyed
  := by
  apply Contract.Keyed.toJson
  rw [← label_of_documentOf h]
  change Contract.Keyed ⟨_, options.contractIndex, _, _⟩
  rw [hindex]
  apply keyed_of_keyOf hkey

open Run

/-! ### Headers on their own -/

/-- Whatever files a header is compiled with, its document has a key exactly if it has an index. -/
theorem keyed_of_compileFile {header : Path} {prelude contractDef : Option Path}
    {version : Option String} {w w' : World} {d : Document TypeDesc}
    (h : (compileFile header prelude contractDef version).outcome w = (.ok d, w')) :
  d.toJson.Keyed
  := by
  unfold compileFile at h
  obtain ⟨preludeText, w₁, -, h⟩ := outcome_bind_eq_ok_iff.mp h
  obtain ⟨text, w₂, -, h⟩ := outcome_bind_eq_ok_iff.mp h
  obtain ⟨index, w₃, -, h⟩ := outcome_bind_eq_ok_iff.mp h
  obtain ⟨key, w₄, hkey, h⟩ := outcome_bind_eq_ok_iff.mp h
  rw [outcome_settings_bind, outcome_get_bind] at h
  exact keyed_of_documentOf (documentOf_of_outcome h) rfl (eq_ok_of_outcome_ofExcept hkey)

/-! ### Headers of a registry -/

namespace Registry

variable {r : Registry} {settings : CompilerSettings}

/-- The text of a document in which the contract has a key exactly if it has an index. -/
def HasKeyedText (document : String × Text) : Prop :=
  ∃ d : Document TypeDesc, Json.render d.toJson = .ok document.2 ∧ d.toJson.Keyed

theorem hasKeyedText_of_textIn {environment : Table String} {files : FileTree} {prelude : Text}
    {indices : Table Nat} {header : String} {text : Text}
    (h : r.textIn environment files prelude indices header = .ok text) :
  HasKeyedText (header, text)
  := by
  obtain ⟨d, hdocument, hrender⟩ := bind_eq_ok_iff.mp h
  refine ⟨d, mapError_eq_ok_iff.mp hrender, ?_⟩
  obtain ⟨key, hkey, h⟩ := bind_eq_ok_iff.mp hdocument
  obtain ⟨source, -, h⟩ := bind_eq_ok_iff.mp h
  exact keyed_of_documentOf h rfl (mapError_eq_ok_iff.mp hkey)

theorem Fills.hasKeyedText {environment : Table String} {prelude : Text} {indices : Table Nat}
    {files files' : FileTree} {written : List (String × Text)}
    (h : Fills r settings environment prelude indices files written files') :
  ∀ document ∈ written, HasKeyedText document
  := by
  rintro ⟨header, text⟩ hmem
  obtain ⟨before, after, hwritten⟩ := List.append_of_mem hmem
  obtain ⟨files₁, -, htext⟩ := h.exists_compiled hwritten
  exact hasKeyedText_of_textIn htext

/-- Documents with keys are written to files one after another, at most the output directory having
been made before; the paths that a run returns are theirs. -/
def WritesKeyed (r : Registry) (settings : CompilerSettings) (files files' : FileTree)
    (result : Except Failure (List Path)) : Prop :=
  ∃ (tree : FileTree) (written : List (String × Text)),
    (tree = files ∨ tree = (files.makeDirectories r.outputDir).2) ∧
    written.foldlM (r.put settings) tree = .ok files' ∧
    (∀ document ∈ written, HasKeyedText document) ∧
    ∀ paths, result = .ok paths →
      paths = written.map fun document => r.documentPath settings document.1

/-- However a run of a registry ends, it has written documents with keys only. -/
theorem writesKeyed_of_generate {w w' : World} {result : Except Failure (List Path)}
    (h : (r.generate settings).outcome w = (result, w')) :
  r.WritesKeyed settings w.files w'.files result
  := by
  obtain ⟨hcourse, -⟩ := course_of_generate h
  generalize w'.files = left at hcourse ⊢
  cases hcourse with
  | unread hinputs => exact ⟨w.files, [], .inl rfl, rfl, by simp, by simp⟩
  | unmade hinputs hdirectory =>
      exact ⟨left, [], .inr (by rw [hdirectory]), rfl, by simp, by simp⟩
  | stopped hinputs hdirectory horder hheaders hfills hstep =>
      exact ⟨_, _, .inr (by rw [hdirectory]), hfills.foldlM, hfills.hasKeyedText, by simp⟩
  | finished hinputs hdirectory hheaders hfills =>
      refine ⟨_, _, .inr (by rw [hdirectory]), hfills.foldlM, hfills.hasKeyedText, ?_⟩
      intro paths hpaths
      obtain rfl := Except.ok.inj hpaths
      rw [← hheaders]
      simp only [List.map_map, Function.comp_def]

end Registry

/-- Published keys identify the contract.  Every index below the bound has a key: 64 hexadecimal
digits in lower case, as the schema asks for, which give the index back; so different values do not
have the same key.  Every other value is refused: for being no index, or, exactly if an integer in
it is too long to be shown, for that.  In every document that is compiled from a header on its own,
with or without a prelude and a list of contracts, and in every document that a registry writes,
whether its run succeeds or fails, the contract has a key exactly if it has an index, and the key
identifies the contract with that index. -/
theorem PublicKey.published (v : Json) :
  (∀ n : Nat, n < indexBound → v = .int n →
    ∃ key, ofJson v = .ok key ∧ Identifies key n ∧ Schema.isKeyText (.text key)) ∧
  (∀ w key, ofJson v = .ok key → ofJson w = .ok key → v = w) ∧
  (ofJson v = .error (.index ⟨v⟩) ↔ v.isWritable ∧ ∀ n : Nat, n < indexBound → v ≠ .int n) ∧
  (ofJson v = .error (.numeral .unwritable) ↔ ¬ v.isWritable) ∧
  (∀ header prelude contractDef version w w' d,
    (compileFile header prelude contractDef version).outcome w = (.ok d, w') → d.toJson.Keyed) ∧
  ∀ (r : Registry) settings w w' result, (r.generate settings).outcome w = (result, w') →
    r.WritesKeyed settings w.files w'.files result
  := by
  refine ⟨?_, ?_, ofJson_eq_index_iff, ofJson_eq_unwritable_iff, ?_, ?_⟩
  · rintro n hn rfl
    exact ⟨hex n, ofJson_eq_ok_iff.mpr ⟨n, hn, rfl, rfl⟩, identifies_hex hn,
      (identifies_hex hn).isKeyText⟩
  · intro w key hv hw
    obtain ⟨m, hm, rfl, rfl⟩ := ofJson_eq_ok_iff.mp hv
    obtain ⟨n, hn, rfl, hkey⟩ := ofJson_eq_ok_iff.mp hw
    have hsame := identifies_hex hm
    rw [hkey] at hsame
    rw [hsame.unique (identifies_hex hn)]
  · intro header prelude contractDef version w w' d h
    exact keyed_of_compileFile h
  · intro r settings w w' result h
    exact Registry.writesKeyed_of_generate h

/-- A listed header gets its key, two headers that are not listed get none, and a Boolean value is
refused although it equals an index. -/
theorem PublicKey.published_loneWorld :
  (∃ key, ofJson (.int 7) = .ok key ∧ Identifies key 7 ∧ Schema.isKeyText (.text key)) ∧
  ofJson (.bool true) = .error (.index ⟨.bool true⟩) ∧
  (∃ d w', (compileFile (.ofString "contracts/A.h") none (some (.ofString "def.h")) none).outcome
      Registry.loneWorld = (.ok d, w') ∧ d.contract.index = some 7 ∧ d.toJson.Keyed) ∧
  ∃ result w', (Registry.sampleRegistry.generate .default).outcome Registry.collidingWorld =
      (result, w') ∧
    Registry.sampleRegistry.WritesKeyed .default Registry.collidingWorld.files w'.files result
  := by
  obtain ⟨hindex, -, -, -, hfiles, hregistries⟩ := published (.int 7)
  refine ⟨hindex 7 (by decide) rfl, ?_, ?_, ?_⟩
  · obtain ⟨-, -, hother, -⟩ := published (.bool true)
    apply hother.mpr
    refine ⟨rfl, ?_⟩
    intro n _ h
    cases h
  · have hcompiled : ((compileFile (.ofString "contracts/A.h") none (some (.ofString "def.h"))
        none).outcome Registry.loneWorld).1.toOption.map (·.contract.index) = some (some 7) := by
      decide +kernel
    rcases hrun : (compileFile (.ofString "contracts/A.h") none (some (.ofString "def.h"))
        none).outcome Registry.loneWorld with ⟨e | d, w'⟩
    · rw [hrun] at hcompiled
      contradiction
    · rw [hrun] at hcompiled
      exact ⟨d, w', rfl, Option.some.inj hcompiled, hfiles _ _ _ _ _ _ _ hrun⟩
  · obtain ⟨w', hrun, -⟩ := Registry.outcome_colliding
    exact ⟨_, w', hrun, hregistries _ _ _ _ _ hrun⟩

/-- The least number that is too long to be written is no index, but that is not what it is refused
for. -/
theorem PublicKey.ofJson_longNumber :
  (∀ n : Nat, n < indexBound → Json.int (10 ^ 4300) ≠ .int n) ∧
  ofJson (.int (10 ^ 4300)) = .error (.numeral .unwritable) ∧
  ∀ cause, ofJson (.int (10 ^ 4300)) ≠ .error (.index cause)
  := by
  have hlong : ¬ (Json.int (10 ^ 4300)).isWritable := by decide +kernel
  have hrefused := ofJson_eq_unwritable_iff.mpr hlong
  refine ⟨ne_index_of_not_isWritable hlong, hrefused, ?_⟩
  intro cause h
  rw [hrefused] at h
  exact Refusal.noConfusion (Except.error.inj h)

end ContractInterface
