import Mathlib.Data.List.Basic

/-! Rooted paths. The text of a path has `/` between its names; an empty name and `.` stand for nothing,
    and `..` takes back the name before it. Reading a text gives its names, and rendering them gives the
    shortest text of the path. Lying within a directory is a prefix of names, and for rendered paths it
    can be told from the texts. -/

namespace HermesOps.Schemes.RootedPath

/-- A name that stands for itself. -/
structure IsName (name : List Char) : Prop where
  nonempty : name ≠ []
  notSelf : name ≠ ['.']
  notParent : name ≠ ['.', '.']
  noSlash : '/' ∉ name

instance (name : List Char) : Decidable (IsName name) :=
  decidable_of_iff (name ≠ [] ∧ name ≠ ['.'] ∧ name ≠ ['.', '.'] ∧ '/' ∉ name)
    ⟨fun h => ⟨h.1, h.2.1, h.2.2.1, h.2.2.2⟩, fun h => ⟨h.nonempty, h.notSelf, h.notParent, h.noSlash⟩⟩

def push (path : List (List Char)) (name : List Char) : List (List Char) :=
  if name = [] ∨ name = ['.'] then path
  else if name = ['.', '.'] then path.dropLast
  else path ++ [name]

/-- The names of a path. -/
def read (text : List Char) : List (List Char) := (text.splitOn '/').foldl push []

def chain (path : List (List Char)) : List Char := path.flatMap ('/' :: ·)

/-- The shortest text of a path. -/
def render (path : List (List Char)) : List Char := if path = [] then ['/'] else chain path

section Read

variable {path names : List (List Char)} {name text : List Char}

theorem push_name (h : IsName name) : push path name = path ++ [name] := by
  unfold push
  rw [if_neg (by simp [h.nonempty, h.notSelf]), if_neg h.notParent]

theorem foldl_push (h : ∀ n ∈ names, IsName n) : names.foldl push path = path ++ names := by
  induction names generalizing path with
  | nil => simp
  | cons n ns ih =>
    obtain ⟨hn, hns⟩ := List.forall_mem_cons.mp h
    rw [List.foldl_cons, push_name hn, ih hns, List.append_assoc, List.singleton_append]

theorem push_isName (hname : '/' ∉ name) (hpath : ∀ n ∈ path, IsName n) :
    ∀ n ∈ push path name, IsName n := by
  unfold push
  intro n hn
  split at hn
  · exact hpath n hn
  · rename_i hself
    split at hn
    · exact hpath n (List.dropLast_subset path hn)
    · rename_i hparent
      rcases List.mem_append.mp hn with hn | hn
      · exact hpath n hn
      · rw [List.mem_singleton.mp hn]
        exact ⟨fun h => hself (.inl h), fun h => hself (.inr h), hparent, hname⟩

theorem foldl_push_isName (hnames : ∀ n ∈ names, '/' ∉ n) (hpath : ∀ n ∈ path, IsName n) :
    ∀ n ∈ names.foldl push path, IsName n := by
  induction names generalizing path with
  | nil => exact hpath
  | cons n ns ih =>
    obtain ⟨hn, hns⟩ := List.forall_mem_cons.mp hnames
    exact ih hns (push_isName hn hpath)

theorem not_mem_splitOn (text : List Char) : ∀ n ∈ text.splitOn '/', '/' ∉ n := by
  induction text with
  | nil => simp
  | cons c cs ih =>
    intro n hn
    rw [List.splitOn_cons_eq_if_modifyHead] at hn
    split at hn
    · rcases List.mem_cons.mp hn with rfl | hn
      · exact List.not_mem_nil
      · exact ih n hn
    · rename_i hc
      cases hsplit : cs.splitOn '/' with
      | nil => exact absurd hsplit (List.splitOn_ne_nil _ _)
      | cons m ms =>
        rw [hsplit, List.modifyHead_cons] at hn
        rw [hsplit] at ih
        rcases List.mem_cons.mp hn with rfl | hn
        · have hm := ih m List.mem_cons_self
          simp only [beq_iff_eq] at hc
          simp [hm, Ne.symm hc]
        · exact ih n (List.mem_cons_of_mem m hn)

/-- A path that is read has names that stand for themselves. -/
theorem read_isName (text : List Char) : ∀ n ∈ read text, IsName n :=
  foldl_push_isName (not_mem_splitOn text) (by simp)

end Read

section Render

variable {path inner outer : List (List Char)} {name : List Char}

theorem splitOn_chain (hname : '/' ∉ name) (h : ∀ n ∈ path, '/' ∉ n) :
    (name ++ chain path).splitOn '/' = name :: path := by
  induction path generalizing name with
  | nil => simp [chain, List.splitOn_eq_singleton hname]
  | cons n ns ih =>
    obtain ⟨hn, hns⟩ := List.forall_mem_cons.mp h
    have hchain : chain (n :: ns) = '/' :: (n ++ chain ns) := rfl
    rw [hchain, List.splitOn_append_cons_self_of_not_mem hname, ih hn hns]

theorem splitOn_path (h : ∀ n ∈ path, IsName n) : (chain path).splitOn '/' = [] :: path := by
  have hsplit : ([] ++ chain path).splitOn '/' = [] :: path :=
    splitOn_chain (by simp) fun n hn => (h n hn).noSlash
  rwa [List.nil_append] at hsplit

/-- Reading takes the text of a path back. -/
theorem read_render (h : ∀ n ∈ path, IsName n) : read (render path) = path := by
  unfold read render
  split
  · rename_i hpath
    rw [hpath]
    rfl
  · rw [splitOn_path h, List.foldl_cons, foldl_push h]
    rfl

theorem render_ne_nil (h : path ≠ []) : render path = chain path := if_neg h

theorem splitOn_render (hpath : path ≠ []) (h : ∀ n ∈ path, IsName n) :
    (render path).splitOn '/' = [] :: path := by
  rw [render_ne_nil hpath, splitOn_path h]

theorem render_inj (hinner : ∀ n ∈ inner, IsName n) (houter : ∀ n ∈ outer, IsName n) :
    render inner = render outer ↔ inner = outer := by
  constructor
  · intro h
    rw [← read_render hinner, h, read_render houter]
  · rintro rfl
    rfl

/-- A rendered path is a directory, or its text goes on after the directory's text and `/`, if and only
    if it lies within the directory. -/
theorem render_within (hinner : ∀ n ∈ inner, IsName n) (houter : ∀ n ∈ outer, IsName n)
    (hne : outer ≠ []) :
    (render inner = render outer ∨ render outer ++ ['/'] <+: render inner) ↔ outer <+: inner := by
  constructor
  · rintro (h | ⟨rest, h⟩)
    · exact (render_inj hinner houter).mp h ▸ List.prefix_rfl
    · have hinnerNe : inner ≠ [] := by
        rintro rfl
        obtain ⟨n, ns, rfl⟩ := List.exists_cons_of_ne_nil hne
        have hlen := congrArg List.length h
        simp [render, chain] at hlen
      have hsplit := congrArg (List.splitOn '/') h
      rw [List.append_assoc, List.singleton_append, List.splitOn_append_cons_self,
        splitOn_render hne houter, splitOn_render hinnerNe hinner, List.cons_append] at hsplit
      exact ⟨_, (List.cons.inj hsplit).2⟩
  · rintro ⟨rest, rfl⟩
    cases rest with
    | nil => exact .inl (by rw [List.append_nil])
    | cons n ns =>
      refine .inr ⟨n ++ chain ns, ?_⟩
      rw [render_ne_nil hne, render_ne_nil (by simp)]
      simp [chain]

end Render

end HermesOps.Schemes.RootedPath
