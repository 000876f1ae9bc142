import ContractInterface.FileTree
import ContractInterface.Proofs.Except

/-!
# Changes of file trees

A path leads to the same place as long as the directories that it passes stay directories.
Writing a file changes one place, which was no directory and does not become one, so the shape of
the tree stays.  Making a directory with those above it leaves everything that is there and adds
directories only, on the way to the wanted one.
-/

namespace ContractInterface.FileTree

variable {tree tree' tree'' : FileTree} {location other : Location} {node : Node} {p : Path}

/-! ### Places -/

theorem find?_place_self (nodes : List (Location × Node)) (location : Location) (node : Node) :
  find? (place nodes location node) location = some node
  := by
  induction nodes with
  | nil => simp [place, find?]
  | cons entry nodes ih =>
      by_cases h : entry.1 = location
      · simp [place, find?, h]
      · simp [place, find?, h, ih]

theorem find?_place_of_ne (nodes : List (Location × Node)) (node : Node)
    (h : other ≠ location) :
  find? (place nodes location node) other = find? nodes other
  := by
  induction nodes with
  | nil => simp [place, find?, h.symm]
  | cons entry nodes ih =>
      by_cases hentry : entry.1 = location
      · simp [place, find?, hentry, h.symm]
      · simp [place, find?, hentry, ih]

theorem get?_set_self (h : location ≠ []) :
  (tree.set location node).get? location = some node
  := by
  simp [get?, set, h, find?_place_self]

theorem get?_set_of_ne (h : other ≠ location) :
  (tree.set location node).get? other = tree.get? other
  := by
  simp [get?, set, find?_place_of_ne _ _ h]

/-- The root is a directory. -/
theorem ne_nil_of_get? (h : tree.get? location ≠ some .directory) : location ≠ []
  := by
  rintro rfl
  apply h rfl

/-! ### Paths -/

theorem locate_eq_ok_iff {place : Location} :
  tree.locate p = .ok place ↔
    p.toString.toList.contains '\x00' = false ∧ ¬ maxPathSize < p.toString.utf8ByteSize ∧
      tree.walk (if p.root.isEmpty then tree.cwd else []) p.parts = .ok place
  := by
  unfold locate
  by_cases hnull : p.toString.toList.contains '\x00'
  · rw [if_pos hnull]
    simp only [hnull, reduceCtorEq, false_and]
  · rw [if_neg hnull]
    by_cases hlong : maxPathSize < p.toString.utf8ByteSize
    · rw [if_pos hlong]
      simp only [hlong, not_true, reduceCtorEq, false_and, and_false]
    · rw [if_neg hlong, mapError_eq_ok_iff]
      simp only [Bool.eq_false_iff.mpr hnull, hlong, not_false_iff, true_and]

theorem entries_of_pairwise {place : Location} {names : List String}
    (hnames : (tree.nodes.filterMap fun (there, _) =>
      if there.dropLast = place then there.getLast? else none) = names)
    (hsorted : names.Pairwise (· ≤ ·)) :
  tree.entries place = names
  := by
  rw [entries, hnames]
  apply List.mergeSort_of_pairwise
  simpa using hsorted

/-- A directory whose entries stand in the order of their names is listed in that order. -/
theorem list_of_pairwise {place : Location} {names : List String}
    (hplace : tree.locate p = .ok place) (hdirectory : tree.get? place = some .directory)
    (hnames : (tree.nodes.filterMap fun (there, _) =>
      if there.dropLast = place then there.getLast? else none) = names)
    (hsorted : names.Pairwise (· ≤ ·)) :
  tree.list p = .ok names
  := by
  rw [list, hplace, ← entries_of_pairwise hnames hsorted]
  simp only [bind, Except.bind, hdirectory]
  rfl

/-- The directories of a tree are directories of another one. -/
structure KeepsDirectories (tree tree' : FileTree) : Prop where
  cwd : tree'.cwd = tree.cwd
  directory : ∀ {location : Location},
    tree.get? location = some .directory → tree'.get? location = some .directory

namespace KeepsDirectories

theorem walk (h : tree.KeepsDirectories tree') {names : List String} {place : Location}
    (hwalk : tree.walk location names = .ok place) :
  tree'.walk location names = .ok place
  := by
  induction names generalizing location with
  | nil => exact hwalk
  | cons name names ih =>
      rcases hnode : tree.get? location with _ | content | _ | _
      · simp [FileTree.walk, hnode] at hwalk
      · simp [FileTree.walk, hnode] at hwalk
      · simp only [FileTree.walk, hnode] at hwalk
        simp only [FileTree.walk, h.directory hnode]
        split_ifs at hwalk ⊢ with hlong
        · apply ih hwalk
        · apply ih hwalk
      · simp [FileTree.walk, hnode] at hwalk

/-- A path leads to the same place if directories are kept. -/
theorem locate (h : tree.KeepsDirectories tree') {place : Location}
    (hlocate : tree.locate p = .ok place) :
  tree'.locate p = .ok place
  := by
  obtain ⟨hnull, hlong, hwalk⟩ := locate_eq_ok_iff.mp hlocate
  rw [← h.cwd] at hwalk
  exact locate_eq_ok_iff.mpr ⟨hnull, hlong, h.walk hwalk⟩

end KeepsDirectories

/-! ### Writing a file -/

/-- A file is written at the place that its path leads to, unless a sink is there. -/
theorem exists_of_write {content : List UInt8} (h : tree.write p content = .ok tree') :
  ∃ place, tree.locate p = .ok place ∧ tree.get? place ≠ some .directory ∧
    tree' = if tree.get? place = some .sink then tree else tree.set place (.file content)
  := by
  obtain ⟨place, hplace, h⟩ := bind_eq_ok_iff.mp h
  use place, hplace
  rcases hnode : tree.get? place with _ | old | _ | _
  · rw [hnode] at h
    obtain rfl := Except.ok.inj h
    simp
  · rw [hnode] at h
    obtain rfl := Except.ok.inj h
    simp
  · rw [hnode] at h
    contradiction
  · rw [hnode] at h
    obtain rfl := Except.ok.inj h
    simp

section Write

variable {content : List UInt8} {place : Location} (h : tree.write p content = .ok tree')
  (hplace : tree.locate p = .ok place)

include h hplace

/-- Writing leaves all other places alone. -/
theorem get?_write_of_ne (hother : other ≠ place) :
  tree'.get? other = tree.get? other
  := by
  obtain ⟨place', hplace', -, rfl⟩ := exists_of_write h
  obtain rfl := Except.ok.inj (hplace.symm.trans hplace')
  split_ifs with hsink
  · rfl
  · apply get?_set_of_ne hother

theorem get?_write_self (hsink : tree.get? place ≠ some .sink) :
  tree'.get? place = some (.file content)
  := by
  obtain ⟨place', hplace', hdirectory, rfl⟩ := exists_of_write h
  obtain rfl := Except.ok.inj (hplace.symm.trans hplace')
  rw [if_neg hsink]
  apply get?_set_self (ne_nil_of_get? hdirectory)

theorem get?_write_sink (hsink : tree.get? place = some .sink) :
  tree' = tree
  := by
  obtain ⟨place', hplace', -, rfl⟩ := exists_of_write h
  obtain rfl := Except.ok.inj (hplace.symm.trans hplace')
  rw [if_pos hsink]

end Write

/-- A tree that has the directories of another one, and no new sinks. -/
structure KeepsShape (tree tree' : FileTree) : Prop where
  cwd : tree'.cwd = tree.cwd
  directory_iff : ∀ {location : Location},
    tree'.get? location = some .directory ↔ tree.get? location = some .directory
  sink : ∀ {location : Location},
    tree'.get? location = some .sink → tree.get? location = some .sink

namespace KeepsShape

theorem refl (tree : FileTree) : tree.KeepsShape tree
  where
  cwd := rfl
  directory_iff := Iff.rfl
  sink := id

theorem trans (h : tree.KeepsShape tree') (h' : tree'.KeepsShape tree'') :
  tree.KeepsShape tree''
  where
  cwd := h'.cwd.trans h.cwd
  directory_iff := h'.directory_iff.trans h.directory_iff
  sink := fun hsink => h.sink (h'.sink hsink)

/-- Paths lead to the same places if the shape is kept. -/
theorem locate_iff (h : tree.KeepsShape tree') {place : Location} :
  tree'.locate p = .ok place ↔ tree.locate p = .ok place
  := by
  constructor
  · apply KeepsDirectories.locate ⟨h.cwd.symm, h.directory_iff.mp⟩
  · apply KeepsDirectories.locate ⟨h.cwd, h.directory_iff.mpr⟩

end KeepsShape

/-- Writing makes and removes no directories and makes no sinks. -/
theorem keepsShape_write {content : List UInt8} (h : tree.write p content = .ok tree') :
  tree.KeepsShape tree'
  := by
  obtain ⟨place, hplace, hdirectory, htree'⟩ := exists_of_write h
  have hcwd : tree'.cwd = tree.cwd := by
    rw [htree']
    split_ifs
    · rfl
    · rfl
  by_cases hsink : tree.get? place = some .sink
  · rw [get?_write_sink h hplace hsink]
    exact .refl tree
  · have hself := get?_write_self h hplace hsink
    constructor
    · exact hcwd
    · intro location
      by_cases hlocation : location = place
      · rw [hlocation, hself]
        simp [hdirectory]
      · rw [get?_write_of_ne h hplace hlocation]
    · intro location hnode
      by_cases hlocation : location = place
      · rw [hlocation, hself] at hnode
        cases hnode
      · rw [← get?_write_of_ne h hplace hlocation, hnode]

/-! ### Reading a file -/

theorem read_eq_ok {place : Location} {content : List UInt8} (hplace : tree.locate p = .ok place)
    (hnode : tree.get? place = some (.file content)) :
  tree.read p = .ok content
  := by
  rw [read, hplace]
  simp only [bind, Except.bind, hnode]
  rfl

/-- What is read at a path depends only on the place that it leads to and on what is there. -/
theorem read_eq_read {place : Location} (hplace : tree.locate p = .ok place)
    (hplace' : tree'.locate p = .ok place) (hnode : tree'.get? place = tree.get? place) :
  tree'.read p = tree.read p
  := by
  rw [read, read, hplace, hplace']
  simp only [bind, Except.bind, hnode]

/-! ### Making directories -/

/-- A tree in which some of the directories on the way to a path have been made: everything that
was there is still there. -/
structure GainsDirectories (p : Path) (tree tree' : FileTree) : Prop where
  cwd : tree'.cwd = tree.cwd
  kept : ∀ {location : Location} {node : Node},
    tree.get? location = some node → tree'.get? location = some node
  added : ∀ {location : Location}, tree.get? location = none →
    tree'.get? location = none ∨ (tree'.get? location = some .directory ∧
      ∃ n, tree'.locate { p with parts := p.parts.take n } = .ok location)

namespace GainsDirectories

theorem keepsDirectories (h : GainsDirectories p tree tree') : tree.KeepsDirectories tree'
  where
  cwd := h.cwd
  directory := h.kept

theorem refl (p : Path) (tree : FileTree) : GainsDirectories p tree tree
  where
  cwd := rfl
  kept := id
  added := Or.inl

theorem trans (h : GainsDirectories p tree tree') (h' : GainsDirectories p tree' tree'') :
  GainsDirectories p tree tree''
  where
  cwd := h'.cwd.trans h.cwd
  kept := fun hnode => h'.kept (h.kept hnode)
  added := by
    intro location hnone
    rcases h.added hnone with hnone' | ⟨hdirectory, n, hlocate⟩
    · apply h'.added hnone'
    · right
      exact ⟨h'.kept hdirectory, n, h'.keepsDirectories.locate hlocate⟩

/-- The way to the directory above a path is part of the way to the path. -/
theorem of_parent (h : GainsDirectories p.parent tree tree') : GainsDirectories p tree tree'
  where
  cwd := h.cwd
  kept := h.kept
  added := by
    intro location hnone
    rcases h.added hnone with hnone' | ⟨hdirectory, n, hlocate⟩
    · left
      apply hnone'
    · right
      use hdirectory, min n (p.parts.length - 1)
      rw [← List.take_take, ← List.dropLast_eq_take]
      apply hlocate

end GainsDirectories

theorem makeDirectory_eq_ok (h : tree.makeDirectory p = .ok tree') :
  ∃ place, tree.locate p = .ok place ∧ tree.get? place = none ∧
    tree' = tree.set place .directory
  := by
  obtain ⟨place, hplace, h⟩ := bind_eq_ok_iff.mp h
  use place, hplace
  rcases hnode : tree.get? place with _ | node
  · rw [hnode] at h
    exact ⟨rfl, (Except.ok.inj h).symm⟩
  · rw [hnode] at h
    contradiction

/-- What a path leads to, if it leads to something. -/
theorem exists_of_lookUp (h : tree.lookUp p = .ok (some node)) :
  ∃ place, tree.locate p = .ok place ∧ tree.get? place = some node
  := by
  unfold lookUp at h
  split at h
  · rename_i place hplace
    exact ⟨place, hplace, Except.ok.inj h⟩
  · contradiction
  · cases Except.ok.inj h

/-- A directory that has been provided is there, and nothing else is new. -/
theorem gains_provideDirectory (h : tree.provideDirectory p = .ok tree') :
  GainsDirectories p tree tree' ∧
    ∃ place, tree'.locate p = .ok place ∧ tree'.get? place = some .directory
  := by
  unfold provideDirectory at h
  rcases hmake : tree.makeDirectory p with e | made
  · -- something is there already, and it is a directory
    rw [hmake] at h
    cases e with
    | nullByte => contradiction
    | refused refusal q =>
        obtain ⟨found, hfound, h⟩ := bind_eq_ok_iff.mp h
        split_ifs at h with hdirectory
        obtain rfl := Except.ok.inj h
        obtain ⟨node, hnode, hfound⟩ := bind_eq_ok_iff.mp hfound
        obtain rfl := Except.ok.inj hfound
        simp only [ne_eq, Bool.and_eq_true, beq_iff_eq] at hdirectory
        rw [hdirectory.2] at hnode
        exact ⟨.refl p tree, exists_of_lookUp hnode⟩
  · rw [hmake] at h
    obtain rfl := Except.ok.inj h
    obtain ⟨place, hplace, hnone, rfl⟩ := makeDirectory_eq_ok hmake
    have hroot : place ≠ [] := by
      rintro rfl
      cases hnone
    have hself : (tree.set place .directory).get? place = some .directory := get?_set_self hroot
    have hkept : ∀ {location node}, tree.get? location = some node →
        (tree.set place .directory).get? location = some node := by
      intro location node hnode
      rw [get?_set_of_ne]
      · apply hnode
      · rintro rfl
        rw [hnone] at hnode
        contradiction
    have hkeeps : tree.KeepsDirectories (tree.set place .directory) := ⟨rfl, hkept⟩
    have hplace' := hkeeps.locate hplace
    refine ⟨⟨rfl, hkept, ?_⟩, place, hplace', hself⟩
    intro location hlocation
    by_cases heq : location = place
    · right
      rw [heq, hself]
      use rfl, p.parts.length
      rw [List.take_length]
      apply hplace'
    · left
      rw [get?_set_of_ne heq, hlocation]

/-- How making a directory with those above it ends: it adds directories on the way also when it
fails, and if it does not fail, the directory is there. -/
structure Makes (p : Path) (tree : FileTree) (outcome : Except Error Unit × FileTree) : Prop where
  gains : GainsDirectories p tree outcome.2
  there : outcome.1 = .ok () →
    ∃ place, outcome.2.locate p = .ok place ∧ outcome.2.get? place = some .directory

theorem makes_provideDirectory (tree : FileTree) (p : Path) :
  Makes p tree (tree.change (tree.provideDirectory p))
  := by
  rcases h : tree.provideDirectory p with e | tree'
  · refine ⟨.refl p tree, ?_⟩
    rintro ⟨⟩
  · obtain ⟨hgains, hthere⟩ := gains_provideDirectory h
    exact ⟨hgains, fun _ => hthere⟩

theorem makes_makeWithin (depth : Nat) (tree : FileTree) (p : Path) :
  Makes p tree (makeWithin depth tree p)
  := by
  induction depth generalizing tree p with
  | zero => apply makes_provideDirectory
  | succ depth ih =>
      have hprovide := makes_provideDirectory tree p
      have hparent := ih tree p.parent
      rw [makeWithin]
      split
      · split
        · rename_i tree' habove
          rw [habove] at hparent
          have hagain := makes_provideDirectory tree' p
          exact ⟨hparent.gains.of_parent.trans hagain.gains, hagain.there⟩
        · rename_i outcome hfailed
          refine ⟨hparent.gains.of_parent, ?_⟩
          intro hok
          exact (hfailed _ (Prod.ext hok rfl)).elim
      · apply hprovide

theorem makes_makeDirectories (tree : FileTree) (p : Path) :
  Makes p tree (tree.makeDirectories p)
  := makes_makeWithin p.parts.length tree p

end ContractInterface.FileTree
