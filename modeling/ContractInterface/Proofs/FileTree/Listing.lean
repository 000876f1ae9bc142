import ContractInterface.Proofs.FileTree.Change

/-!
# Listings of directories

The files in a directory are found by looking at its entries one after another, and that fails as
soon as the path of an entry is too long.  Changes add entries and remove none, so what is
selected from the entries of a directory stays the same as long as no new entry is selected.
-/

namespace ContractInterface.FileTree

variable {tree tree' tree'' : FileTree} {base location : Location} {p : Path}

/-! ### Looking at paths -/

/-- A path is refused as too long. -/
def TooLong (tree : FileTree) (p : Path) : Prop :=
  ∃ q, tree.locate p = .error (.refused .nameTooLong q)

/-- Whether a path leads to a file. -/
def leadsToFile (tree : FileTree) (p : Path) : Bool :=
  match tree.lookUp p with
  | .ok (some (.file _)) => true
  | _ => false

theorem leadsToFile_iff :
  tree.leadsToFile p ↔
    ∃ place content, tree.locate p = .ok place ∧ tree.get? place = some (.file content)
  := by
  constructor
  · intro h
    unfold leadsToFile at h
    split at h
    · rename_i content hfound
      obtain ⟨place, hplace, hnode⟩ := exists_of_lookUp hfound
      exact ⟨place, content, hplace, hnode⟩
    · contradiction
  · rintro ⟨place, content, hplace, hnode⟩
    simp only [leadsToFile, lookUp, hplace, hnode]

/-- Only paths that are too long cannot be looked at. -/
theorem lookUp_eq_error_iff : (∃ e, tree.lookUp p = .error e) ↔ tree.TooLong p
  := by
  unfold TooLong lookUp
  rcases tree.locate p with (⟨refusal, q⟩ | _) | place
  · cases refusal <;> simp
  · simp
  · simp

theorem eq_leadsToFile_of_isFile {found : Bool} (h : tree.isFile p = .ok found) :
  found = tree.leadsToFile p
  := by
  obtain ⟨node, hnode, h⟩ := bind_eq_ok_iff.mp h
  rw [leadsToFile, hnode]
  rcases node with _ | content | _ | _
  · exact (Except.ok.inj h).symm
  · exact (Except.ok.inj h).symm
  · exact (Except.ok.inj h).symm
  · exact (Except.ok.inj h).symm

theorem isFile_eq_ok_iff : tree.isFile p = .ok (tree.leadsToFile p) ↔ ¬ tree.TooLong p
  := by
  rw [← lookUp_eq_error_iff]
  constructor
  · rintro h ⟨e, he⟩
    rw [isFile, he] at h
    contradiction
  · intro h
    rcases hfile : tree.isFile p with e | found
    · rcases bind_eq_error_iff.mp hfile with he | ⟨node, hnode, he⟩
      · exact (h ⟨e, he⟩).elim
      · split at he
        · contradiction
        · contradiction
    · rw [← eq_leadsToFile_of_isFile hfile]

/-! ### Files in a directory -/

/-- The names of the files in a directory. -/
def filesIn (tree : FileTree) (p : Path) : Except Error (List String) := do
  (← tree.list p).filterM fun name => tree.isFile (p.append name)

/-- A directory all of whose entries can be looked at. -/
structure Listable (tree : FileTree) (p : Path) (base : Location) : Prop where
  locate : tree.locate p = .ok base
  directory : tree.get? base = some .directory
  entries : ∀ name ∈ tree.entries base, ¬ tree.TooLong (p.append name)

theorem list_eq_ok_iff {names : List String} :
  tree.list p = .ok names ↔
    ∃ base, tree.locate p = .ok base ∧ tree.get? base = some .directory ∧
      names = tree.entries base
  := by
  rw [list, bind_eq_ok_iff]
  apply exists_congr
  intro base
  apply and_congr_right
  intro hbase
  rcases tree.get? base with _ | content | _ | _
  · simp [throw, throwThe, MonadExceptOf.throw]
  · simp [throw, throwThe, MonadExceptOf.throw]
  · simp [pure, Except.pure, eq_comm]
  · simp [throw, throwThe, MonadExceptOf.throw]

theorem filesIn_eq_ok_iff {names : List String} :
  tree.filesIn p = .ok names ↔
    ∃ base, tree.Listable p base ∧
      names = (tree.entries base).filter fun name => tree.leadsToFile (p.append name)
  := by
  rw [filesIn, bind_eq_ok_iff]
  constructor
  · rintro ⟨entries, hlist, h⟩
    obtain ⟨base, hbase, hdirectory, rfl⟩ := list_eq_ok_iff.mp hlist
    obtain ⟨hfiles, rfl⟩ := (filterM_eq_ok_iff eq_leadsToFile_of_isFile).mp h
    exact ⟨base, ⟨hbase, hdirectory, fun name hname => isFile_eq_ok_iff.mp (hfiles name hname)⟩,
      rfl⟩
  · rintro ⟨base, h, rfl⟩
    refine ⟨tree.entries base, list_eq_ok_iff.mpr ⟨base, h.locate, h.directory, rfl⟩, ?_⟩
    rw [filterM_eq_ok_iff eq_leadsToFile_of_isFile]
    exact ⟨fun name hname => isFile_eq_ok_iff.mpr (h.entries name hname), rfl⟩

/-! ### Entries -/

/-- The places that a tree has nodes for. -/
def places (tree : FileTree) : List Location :=
  tree.nodes.map Prod.fst

theorem get?_eq_none (hne : location ≠ []) (h : location ∉ tree.places) :
  tree.get? location = none
  := by
  have hfind (nodes : List (Location × Node)) (h : location ∉ nodes.map Prod.fst) :
      find? nodes location = none := by
    induction nodes with
    | nil => rfl
    | cons entry nodes ih =>
        rw [List.map_cons, List.mem_cons, not_or] at h
        rw [find?, if_neg fun heq => h.1 heq.symm, ih h.2]
  rw [get?, if_neg (by simpa using hne), hfind _ h]

/-- The name of a place in a directory. -/
def nameIn? (base place : Location) : Option String :=
  if place.dropLast = base then place.getLast? else none

theorem nameIn?_eq_some_iff {place : Location} {name : String} :
  nameIn? base place = some name ↔ place = base ++ [name]
  := by
  rw [nameIn?, Option.ite_none_right_eq_some]
  constructor
  · rintro ⟨rfl, hname⟩
    exact (List.dropLast_append_getLast? name hname).symm
  · rintro rfl
    simp

theorem entries_eq (tree : FileTree) (base : Location) :
  tree.entries base = (tree.places.filterMap (nameIn? base)).mergeSort fun a b => a ≤ b
  := by
  rw [entries, places, List.filterMap_map]
  rfl

theorem mem_entries {name : String} : name ∈ tree.entries base ↔ base ++ [name] ∈ tree.places
  := by
  rw [entries_eq, List.mem_mergeSort, List.mem_filterMap]
  simp [nameIn?_eq_some_iff]

/-- The entries of a directory come in the order of their names. -/
theorem pairwise_entries (tree : FileTree) (base : Location) :
  (tree.entries base).Pairwise (· ≤ ·)
  := by
  have hsorted : (tree.entries base).Pairwise fun a b => decide (a ≤ b) := by
    apply List.pairwise_mergeSort
    · intro a b c hab hbc
      simp only [decide_eq_true_eq] at hab hbc ⊢
      exact String.le_trans hab hbc
    · intro a b
      simpa using String.le_total a b
  simpa using hsorted

/-! ### New places -/

/-- A tree has the places of another one, and after them places that are new. -/
def Extends (tree tree' : FileTree) : Prop :=
  ∃ new, tree'.places = tree.places ++ new ∧ ∀ location ∈ new, location ∉ tree.places

namespace Extends

theorem refl (tree : FileTree) : tree.Extends tree
  := ⟨[], by simp, by simp⟩

theorem trans (h : tree.Extends tree') (h' : tree'.Extends tree'') : tree.Extends tree''
  := by
  obtain ⟨new, hplaces, hnew⟩ := h
  obtain ⟨new', hplaces', hnew'⟩ := h'
  refine ⟨new ++ new', by rw [hplaces', hplaces, List.append_assoc], ?_⟩
  intro location hlocation hthere
  rcases List.mem_append.mp hlocation with hlocation | hlocation
  · exact hnew location hlocation hthere
  · apply hnew' location hlocation
    rw [hplaces]
    exact List.mem_append_left new hthere

theorem set (tree : FileTree) (location : Location) (node : Node) :
  tree.Extends (tree.set location node)
  := by
  have hplace (nodes : List (Location × Node)) :
      ∃ new, (place nodes location node).map Prod.fst = nodes.map Prod.fst ++ new ∧
        ∀ other ∈ new, other = location ∧ other ∉ nodes.map Prod.fst := by
    induction nodes with
    | nil => exact ⟨[location], by simp [place], by simp⟩
    | cons entry nodes ih =>
        by_cases hentry : entry.1 = location
        · exact ⟨[], by simp [place, hentry], by simp⟩
        · obtain ⟨new, hplaces, hnew⟩ := ih
          refine ⟨new, by simp [place, hentry, hplaces], ?_⟩
          intro other hother
          obtain ⟨rfl, hfresh⟩ := hnew other hother
          exact ⟨rfl, List.not_mem_cons_of_ne_of_not_mem (Ne.symm hentry) hfresh⟩
  obtain ⟨new, hplaces, hnew⟩ := hplace tree.nodes
  exact ⟨new, hplaces, fun other hother => (hnew other hother).2⟩

theorem write {content : List UInt8} (h : tree.write p content = .ok tree') : tree.Extends tree'
  := by
  obtain ⟨place, -, -, rfl⟩ := exists_of_write h
  split_ifs with hsink
  · exact .refl tree
  · apply set

theorem provideDirectory (h : tree.provideDirectory p = .ok tree') : tree.Extends tree'
  := by
  unfold FileTree.provideDirectory at h
  rcases hmake : tree.makeDirectory p with e | made
  · rw [hmake] at h
    cases e with
    | nullByte => contradiction
    | refused refusal q =>
        obtain ⟨found, -, h⟩ := bind_eq_ok_iff.mp h
        split_ifs at h with hdirectory
        obtain rfl := Except.ok.inj h
        exact .refl tree
  · rw [hmake] at h
    obtain rfl := Except.ok.inj h
    obtain ⟨place, -, -, rfl⟩ := makeDirectory_eq_ok hmake
    apply set

theorem change (tree : FileTree) (p : Path) :
  tree.Extends (tree.change (tree.provideDirectory p)).2
  := by
  rcases h : tree.provideDirectory p with e | tree'
  · exact .refl tree
  · exact provideDirectory h

theorem makeWithin (depth : Nat) (tree : FileTree) (p : Path) :
  tree.Extends (makeWithin depth tree p).2
  := by
  induction depth generalizing tree p with
  | zero => apply change
  | succ depth ih =>
      have hparent := ih tree p.parent
      rw [FileTree.makeWithin]
      split
      · split
        · rename_i tree' habove
          rw [habove] at hparent
          exact hparent.trans (change tree' p)
        · exact hparent
      · apply change

theorem mem_entries (h : tree.Extends tree') {name : String} (hname : name ∈ tree.entries base) :
  name ∈ tree'.entries base
  := by
  obtain ⟨new, hplaces, -⟩ := h
  rw [FileTree.mem_entries] at hname ⊢
  rw [hplaces]
  exact List.mem_append_left new hname

/-- What is selected from a directory stays the same if no new entry is selected. -/
theorem filter_entries (h : tree.Extends tree') {test test' : String → Bool}
    (hkept : ∀ name ∈ tree.entries base, test' name = test name)
    (hnew : ∀ name ∈ tree'.entries base, name ∉ tree.entries base → test' name = false) :
  (tree'.entries base).filter test' = (tree.entries base).filter test
  := by
  obtain ⟨new, hplaces, hfresh⟩ := h
  have hperm : (tree'.entries base).Perm (tree.entries base ++ new.filterMap (nameIn? base)) := by
    rw [entries_eq, entries_eq, hplaces, List.filterMap_append]
    apply (List.mergeSort_perm _ _).trans
    exact (List.mergeSort_perm _ _).symm.append_right _
  have hnone : (new.filterMap (nameIn? base)).filter test' = [] := by
    rw [List.filter_eq_nil_iff]
    intro name hname
    obtain ⟨location, hlocation, hplace⟩ := List.mem_filterMap.mp hname
    obtain rfl := nameIn?_eq_some_iff.mp hplace
    rw [hnew name (hperm.mem_iff.mpr (List.mem_append_right _ hname))]
    · exact Bool.false_ne_true
    · rw [FileTree.mem_entries]
      exact hfresh _ hlocation
  have hselected : ((tree'.entries base).filter test').Perm ((tree.entries base).filter test) := by
    rw [← List.filter_congr hkept]
    have hfilter := hperm.filter test'
    rwa [List.filter_append, hnone, List.append_nil] at hfilter
  exact hselected.eq_of_pairwise (fun _ _ _ _ => String.le_antisymm)
    ((pairwise_entries tree' base).filter test') ((pairwise_entries tree base).filter test)

end Extends

end ContractInterface.FileTree
