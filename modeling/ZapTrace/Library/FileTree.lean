import Mathlib.Data.List.Infix
import Mathlib.Data.List.Lemmas
import Mathlib.Data.Set.Basic

/-!
# File trees

A file tree assigns a node to each path, a path being the list of its components below the root,
and every node lies in a directory. The operations are those of a POSIX file system as programs
see them: removing a subtree, creating missing directories, writing a file, and renaming, which
moves a whole subtree and refuses to move a directory into itself.

## Main results

* `FileTree.dir_of_node_append`: every prefix of a present path is a directory
* `FileTree.rename_eq_ok`: when a renaming succeeds, and what it leaves
* `FileTree.agreeOn_makeDirs`: creating directories changes only what is on the way to the path
-/

/-- What a path holds; a symbolic link records whether what it points to exists. -/
inductive Node (β : Type)
  | dir
  | file (content : β)
  | symlink (dangling : Bool)
deriving DecidableEq

/-- The ways an operation on a file tree is refused. -/
inductive Errno
  | enoent
  | enotdir
  | einval
  | enotempty
deriving DecidableEq

/-- A file tree: each path holds at most one node, and every node lies in a directory. -/
structure FileTree (α β : Type) where
  /-- The node at a path. -/
  node : List α → Option (Node β)
  /-- Whatever is present lies in a directory. -/
  parent_dir : ∀ p a, node (p ++ [a]) ≠ none → node p = some .dir

/-! ## Paths -/

section Paths

variable {α : Type}

/-- Two paths overlap when they are equal or one is an ancestor of the other. -/
def Overlap (p q : List α) : Prop := p <+: q ∨ q <+: p

instance [DecidableEq α] (p q : List α) : Decidable (Overlap p q) := by
  unfold Overlap
  infer_instance

theorem overlap_comm {p q : List α} : Overlap p q ↔ Overlap q p := or_comm

theorem overlap_of_below {p q r : List α} (hp : p <+: r) (hq : q <+: r) : Overlap p q :=
  List.prefix_or_prefix_of_prefix hp hq

@[simp] theorem not_append_singleton_prefix (p : List α) (a : α) : ¬ p ++ [a] <+: p :=
  fun h => by
    have hlength := h.length_le
    rw [List.length_append, List.length_singleton] at hlength
    omega

theorem overlap_append_iff {p q r : List α} : Overlap (p ++ q) (p ++ r) ↔ Overlap q r := by
  simp only [Overlap, List.prefix_append_right_inj]

theorem overlap_cons_iff {a b : α} {p q : List α} :
    Overlap (a :: p) (b :: q) ↔ a = b ∧ Overlap p q := by
  simp only [Overlap, List.cons_prefix_cons]
  constructor
  · rintro (⟨rfl, h⟩ | ⟨rfl, h⟩)
    · exact ⟨rfl, .inl h⟩
    · exact ⟨rfl, .inr h⟩
  · rintro ⟨rfl, h | h⟩
    · exact .inl ⟨rfl, h⟩
    · exact .inr ⟨rfl, h⟩

end Paths

namespace FileTree

open List

variable {α β : Type}

/-! ## What a tree holds -/

/-- Every proper prefix of a present path is a directory. -/
theorem dir_of_node_append (t : FileTree α β) {p s : List α} (hs : s ≠ [])
    (h : t.node (p ++ s) ≠ none) : t.node p = some .dir := by
  induction s using reverseRecOn with
  | nil => exact absurd rfl hs
  | append_singleton s a ih =>
    have hps : t.node (p ++ s) = some .dir := t.parent_dir (p ++ s) a (by simpa using h)
    rcases eq_or_ne s [] with rfl | hne
    · simpa using hps
    · exact ih hne (by simp [hps])

theorem dir_of_prefix (t : FileTree α β) {p q : List α} (hpq : p <+: q)
    (h : t.node q = some .dir) : t.node p = some .dir := by
  obtain ⟨s, rfl⟩ := hpq
  rcases eq_or_ne s [] with rfl | hne
  · simpa using h
  · exact t.dir_of_node_append hne (by simp [h])

variable {p : List α}

theorem node_append_eq_none (t : FileTree α β) (h : t.node p = none) (s : List α) : t.node (p ++ s) = none := by
  by_contra hne
  rcases eq_or_ne s [] with rfl | hs
  · exact hne (by simpa using h)
  · simp [t.dir_of_node_append hs hne] at h

/-- Whether a path is present, a symbolic link counting as itself. -/
def lexists (t : FileTree α β) (p : List α) : Bool := (t.node p).isSome

/-- Whether a path is present, a symbolic link counting as what it points to. -/
def pathExists (t : FileTree α β) (p : List α) : Bool :=
  match t.node p with
  | none => false
  | some (.symlink dangling) => !dangling
  | some _ => true

/-- Whether a path is a directory. -/
def isDir (t : FileTree α β) (p : List α) : Bool :=
  match t.node p with
  | some .dir => true
  | _ => false

@[simp] theorem isDir_eq_true {t : FileTree α β} : t.isDir p = true ↔ t.node p = some .dir := by
  unfold isDir
  split <;> simp_all

@[simp] theorem lexists_eq_true {t : FileTree α β} : t.lexists p = true ↔ t.node p ≠ none := by
  simp [lexists, Option.isSome_iff_ne_none]

@[simp] theorem lexists_eq_false {t : FileTree α β} : t.lexists p = false ↔ t.node p = none := by
  simp [lexists]

theorem node_ne_none_of_pathExists {t : FileTree α β} (h : t.pathExists p = true) : t.node p ≠ none := by
  intro hn
  simp [pathExists, hn] at h
variable {t t' : FileTree α β}

theorem pathExists_congr (h : t'.node p = t.node p) : t'.pathExists p = t.pathExists p := by
  simp only [pathExists, h]

/-- The two trees hold the same at every path in `S`. -/
def AgreeOn (S : Set (List α)) (t t' : FileTree α β) : Prop := ∀ r ∈ S, t'.node r = t.node r

theorem AgreeOn.refl (S : Set (List α)) (t : FileTree α β) : AgreeOn S t t := fun _ _ => rfl

theorem AgreeOn.trans {S : Set (List α)} {t t' t'' : FileTree α β} (h : AgreeOn S t t')
    (h' : AgreeOn S t' t'') : AgreeOn S t t'' :=
  fun r hr => (h' r hr).trans (h r hr)

/-! ## Operations -/

variable [DecidableEq α]

/-- Remove a path and everything below it. -/
def remove (t : FileTree α β) (p : List α) : FileTree α β where
  node r := if p <+: r then none else t.node r
  parent_dir q a h := by
    by_cases hp : p <+: q ++ [a]
    · simp [hp] at h
    · have hq : ¬ p <+: q := fun hq => hp (hq.trans (prefix_append q [a]))
      simp only [hp, if_false] at h
      simpa [hq] using t.parent_dir q a h

/-- Create the directories missing along a path; refused when something else stands in the
way. -/
def makeDirs (t : FileTree α β) (q : List α) : Except Errno (FileTree α β) :=
  if q.inits.all fun r => !t.lexists r || t.isDir r then
    .ok
      { node := fun r => if r <+: q then some .dir else t.node r
        parent_dir := by
          intro p a h
          by_cases hp : p ++ [a] <+: q
          · simp [(prefix_append p [a]).trans hp]
          · simp only [hp, if_false] at h
            split
            · rfl
            · exact t.parent_dir p a h }
  else .error .enotdir

/-- Write a file into an existing directory, replacing what stood there unless it is a
directory. -/
def write (t : FileTree α β) (p : List α) (content : β) : Except Errno (FileTree α β) :=
  if h : t.isDir p.dropLast ∧ ¬ t.isDir p then
    .ok
      { node := fun r => if r = p then some (.file content) else t.node r
        parent_dir := by
          intro q a hq
          have hqp : q ≠ p := by
            rintro rfl
            rw [if_neg (by simp)] at hq
            exact h.2 (isDir_eq_true.mpr (t.parent_dir q a hq))
          simp only [hqp, if_false]
          by_cases hqa : q ++ [a] = p
          · simpa [← hqa] using h.1
          · simp only [hqa, if_false] at hq
            exact t.parent_dir q a hq }
  else .error .enoent

/-- Rename a path, moving everything below it. The destination must lie in a directory, outside
the source, and may not be a directory itself. -/
def rename (t : FileTree α β) (src dst : List α) : Except Errno (FileTree α β) :=
  if ¬ t.lexists src then .error .enoent
  else if hd : ¬ t.isDir dst.dropLast then .error .enoent
  else if src = dst then .ok t
  else if hs : src <+: dst then .error .einval
  else if t.isDir dst then .error .enotempty
  else if t.isDir src ∧ t.lexists dst then .error .enotdir
  else
    .ok
      { node := fun r =>
          if dst <+: r then t.node (src ++ r.drop dst.length)
          else if src <+: r then none
          else t.node r
        parent_dir := by
          intro p a h
          by_cases hda : dst <+: p ++ [a]
          · by_cases hdp : dst <+: p
            · have hdrop : (p ++ [a]).drop dst.length = p.drop dst.length ++ [a] :=
                drop_append_of_le_length hdp.length_le
              simp only [hda, hdp, if_true, hdrop] at h ⊢
              exact t.parent_dir _ a (by simpa [append_assoc] using h)
            · have hdst : dst = p ++ [a] := by
                rcases prefix_concat_iff.mp hda with h' | h'
                · exact h'
                · exact absurd h' hdp
              have hsp : ¬ src <+: p := fun hp => hs (hp.trans (hdst ▸ prefix_append p [a]))
              simp only [hdp, hsp, if_false]
              simpa [hdst] using hd
          · have hdp : ¬ dst <+: p := fun hp => hda (hp.trans (prefix_append p [a]))
            by_cases hsa : src <+: p ++ [a]
            · simp [hda, hsa] at h
            · have hsp : ¬ src <+: p := fun hp => hsa (hp.trans (prefix_append p [a]))
              simp only [hda, hsa, if_false] at h
              simpa [hdp, hsp] using t.parent_dir p a h }

variable {q : List α}

theorem makeDirs_eq_ok (h : t.makeDirs q = .ok t') :
    (∀ r, r <+: q → t.node r = none ∨ t.node r = some .dir) ∧
      ∀ r, t'.node r = if r <+: q then some .dir else t.node r := by
  unfold makeDirs at h
  split at h
  · rename_i hall
    cases h
    refine ⟨fun r hr => ?_, fun r => rfl⟩
    simpa using all_eq_true.mp hall r (mem_inits r q |>.mpr hr)
  · cases h

theorem exists_makeDirs {t : FileTree α β} (h : ∀ r, r <+: q → t.node r = none ∨ t.node r = some .dir) :
    ∃ t', t.makeDirs q = .ok t' := by
  unfold makeDirs
  rw [if_pos (all_eq_true.mpr fun r hr => by
    simpa using h r (mem_inits r q |>.mp hr))]
  exact ⟨_, rfl⟩

theorem makeDirs_node (h : t.makeDirs q = .ok t') (r : List α) :
    t'.node r = t.node r ∨ r <+: q ∧ t.node r = none ∧ t'.node r = some .dir := by
  obtain ⟨hclear, hnode⟩ := makeDirs_eq_ok h
  rw [hnode r]
  split
  · rename_i hr
    rcases hclear r hr with hr' | hr'
    · exact .inr ⟨hr, hr', rfl⟩
    · exact .inl hr'.symm
  · exact .inl rfl

theorem write_eq_ok {c : β} (h : t.write p c = .ok t') (r : List α) :
    t'.node r = if r = p then some (.file c) else t.node r := by
  unfold write at h
  split at h
  · cases h
    rfl
  · cases h

theorem exists_write {t : FileTree α β} (c : β) (hdir : t.node p.dropLast = some .dir) (hp : t.node p ≠ some .dir) :
    ∃ t', t.write p c = .ok t' := by
  unfold write
  rw [dif_pos ⟨isDir_eq_true.mpr hdir, fun h => hp (isDir_eq_true.mp h)⟩]
  exact ⟨_, rfl⟩

variable {src dst : List α}

/-- When a renaming to another path succeeds: the source is present, the destination lies outside
the source and is not a directory, and the subtree is moved. -/
theorem rename_eq_ok (hne : src ≠ dst) (h : t.rename src dst = .ok t') :
    t.node src ≠ none ∧ ¬ src <+: dst ∧ t.node dst ≠ some .dir ∧
      ∀ r, t'.node r =
        if dst <+: r then t.node (src ++ r.drop dst.length)
        else if src <+: r then none
        else t.node r := by
  unfold rename at h
  split_ifs at h with hsrc hd hs hdst
  cases h
  exact ⟨lexists_eq_true.mp (by simpa using hsrc), hs, fun h => hdst (isDir_eq_true.mpr h),
    fun r => rfl⟩

theorem exists_rename {t : FileTree α β} (hsrc : t.node src ≠ none) (hdir : t.node dst.dropLast = some .dir)
    (hs : ¬ src <+: dst) (hdst : t.node dst = none) : ∃ t', t.rename src dst = .ok t' := by
  have hne : src ≠ dst := fun h => hs (h ▸ prefix_refl src)
  unfold rename
  simp [hsrc, hdir, hne, hs, hdst]

theorem exists_rename_file {t : FileTree α β} {c : β} (hsrc : t.node src = some (.file c))
    (hdir : t.node dst.dropLast = some .dir) (hs : ¬ src <+: dst) (hdst : t.node dst ≠ some .dir) :
    ∃ t', t.rename src dst = .ok t' := by
  have hne : src ≠ dst := fun h => hs (h ▸ prefix_refl src)
  have hfile : t.isDir src = false := by simp [isDir, hsrc]
  have hdst' : t.isDir dst = false := Bool.eq_false_iff.mpr (mt isDir_eq_true.mp hdst)
  unfold rename
  simp [hsrc, hdir, hne, hs, hfile, hdst']

theorem not_rename_into_self (hne : src ≠ dst) (hs : src <+: dst) : t.rename src dst ≠ .ok t' :=
  fun h => (rename_eq_ok hne h).2.1 hs

/-! ## What the operations leave alone -/

theorem agreeOn_makeDirs {S : Set (List α)} (ht : t.makeDirs q = .ok t') (h : ∀ r ∈ S, r <+: q → t.node r = some .dir) :
    AgreeOn S t t' := by
  intro r hr
  rw [(makeDirs_eq_ok ht).2 r]
  split
  · rename_i hq
    exact (h r hr hq).symm
  · rfl

theorem rename_node_append (hne : src ≠ dst) (ht : t.rename src dst = .ok t') (s : List α) :
    t'.node (dst ++ s) = t.node (src ++ s) := by
  rw [(rename_eq_ok hne ht).2.2.2, if_pos (prefix_append dst s), drop_left]

theorem dir_of_makeDirs {q r : List α} (ht : t.makeDirs q = .ok t') (h : t.node r = some .dir) :
    t'.node r = some .dir := by
  rw [(makeDirs_eq_ok ht).2 r]
  split
  · rfl
  · exact h

end FileTree
