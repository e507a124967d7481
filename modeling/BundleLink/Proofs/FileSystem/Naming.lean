import BundleLink.Proofs.FileSystem.Tree

/-!
Paths that end in a name. Such a path leads to an entry of that name (`Named.address_eq`), it is
what a directory gives for each of its entries (`named_join`), and what is appended to it is
appended to the name (`Named.append`).
-/

set_option autoImplicit false

namespace BundleLink.FileSystem

open BundleLink.Text

/-- A path that ends in what can be the name of an entry. -/
def Named (p : Path) (name : Bytes) : Prop :=
  ∃ front, partsBetween Path.slash p.bytes = front ++ [name] ∧ IsName name

namespace Named

variable {p : Path} {name : Bytes}

theorem bytes_ne_nil (hp : Named p name) : p.bytes ≠ [] := by
  obtain ⟨front, hparts, hname⟩ := hp
  intro hnil
  rw [hnil, partsBetween, List.singleton_eq_append_iff] at hparts
  rcases hparts with ⟨-, hlast⟩ | ⟨-, hlast⟩
  · exact hname.1 (List.singleton_inj.mp hlast)
  · cases hlast

theorem endsInSlash (hp : Named p name) : FileSystem.endsInSlash p = false := by
  obtain ⟨front, hparts, hname⟩ := hp
  rw [Bool.eq_false_iff, FileSystem.endsInSlash, ne_eq, decide_eq_true_eq]
  intro hlast
  obtain ⟨bs, hbs⟩ := List.getLast?_eq_some_iff.mp hlast
  rw [hbs, partsBetween_append_separator] at hparts
  have hnil : [] = name := (List.append_inj' hparts rfl).2 |> List.singleton_inj.mp
  exact hname.1 hnil.symm

theorem isName (hp : Named p name) : IsName name := by
  obtain ⟨_, -, hname⟩ := hp
  exact hname

/-- A path without separators is its own name. -/
theorem bytes_eq (hp : Named p name) (hslash : Path.slash ∉ p.bytes) : p.bytes = name := by
  obtain ⟨front, hparts, hname⟩ := hp
  rw [partsBetween_of_notMem hslash, List.singleton_eq_append_iff] at hparts
  rcases hparts with ⟨-, hlast⟩ | ⟨-, hlast⟩
  · exact (List.singleton_inj.mp hlast).symm
  · cases hlast

theorem fileName? (hp : Named p name) : p.fileName? = some name := by
  obtain ⟨front, hparts, hne, -, hdot, hup⟩ := hp
  have hlast : Path.partComponent? name = some (.name name) := by
    simp [Path.partComponent?, hne, hdot, hup]
  rw [Path.fileName?, Path.components, hparts, List.filterMap_append, List.filterMap_cons, hlast]
  simp

theorem steps_eq (hp : Named p name) : ∃ front, partsBetween Path.slash p.bytes = front ++ [name] ∧
    steps p = front.filter (· ≠ []) ++ [name] := by
  obtain ⟨front, hparts, hname⟩ := hp
  refine ⟨front, hparts, ?_⟩
  rw [steps, hparts, List.filter_append]
  simp [hname.1]

theorem step_eq (hname : IsName name) (loc : Address) : step loc name = loc ++ [name] := by
  simp [step, hname.2.2.1, hname.2.2.2]

/-- A named path leads to an entry of that name. -/
theorem address_eq (hp : Named p name) (fs : FileSystem) :
    fs.address p = (fs.address p).dropLast ++ [name] := by
  obtain ⟨front, -, hsteps⟩ := hp.steps_eq
  obtain ⟨_, -, hname⟩ := hp
  rw [FileSystem.address_eq, hsteps, List.foldl_append, List.foldl_cons, List.foldl_nil,
    step_eq hname, List.dropLast_concat]

/-- Paths that lead to one place end in one name. -/
theorem eq_of_address_eq (hp : Named p name) {q : Path} {name' : Bytes} (hq : Named q name')
    {fs : FileSystem} (haddress : fs.address p = fs.address q) : name = name' := by
  rw [hp.address_eq fs, hq.address_eq fs] at haddress
  exact List.singleton_inj.mp (List.append_inj' haddress rfl).2

theorem isAbsolute_append (hp : Named p name) (s : String) :
    (p.append s).isAbsolute = p.isAbsolute := by
  rw [Path.isAbsolute, Path.isAbsolute, Path.append,
    List.head?_append_of_ne_nil _ hp.bytes_ne_nil]

/-- What is appended to a named path is appended to its name. -/
theorem append (hp : Named p name) {s : String} (hs : Path.slash ∉ bytesOf s)
    (hname : IsName (name ++ bytesOf s)) : Named (p.append s) (name ++ bytesOf s) := by
  obtain ⟨front, hparts, hne, hslash, -⟩ := hp
  refine ⟨front, ?_, hname⟩
  rw [Path.append, partsBetween_append hparts, partsBetween_of_notMem]
  rw [List.mem_append, not_or]
  exact ⟨hslash, hs⟩

theorem start_append (hp : Named p name) (s : String) (fs : FileSystem) :
    fs.start (p.append s) = fs.start p := by
  rw [start, start, isAbsolute_append hp]

/-- What is appended to a named path follows in place of its last step. -/
theorem steps_append (hp : Named p name) (s : String) :
    steps (p.append s) = (steps p).dropLast ++ steps ⟨name ++ bytesOf s⟩ := by
  obtain ⟨front, hparts, hsteps⟩ := hp.steps_eq
  rw [hsteps, List.dropLast_concat, steps, steps, Path.append, partsBetween_append hparts,
    List.filter_append]

theorem foldl_dropLast_steps (hp : Named p name) (fs : FileSystem) :
    (steps p).dropLast.foldl step (fs.start p) = (fs.address p).dropLast := by
  obtain ⟨front, -, hsteps⟩ := hp.steps_eq
  obtain ⟨_, -, hname⟩ := hp
  rw [FileSystem.address_eq, hsteps, List.foldl_append, List.foldl_cons, List.foldl_nil,
    step_eq hname, List.dropLast_concat, List.dropLast_concat]

theorem address_append_eq (hp : Named p name) (s : String) (fs : FileSystem) :
    fs.address (p.append s) =
      (steps ⟨name ++ bytesOf s⟩).foldl step (fs.address p).dropLast := by
  rw [FileSystem.address_eq, hp.steps_append, start_append hp, List.foldl_append,
    hp.foldl_dropLast_steps]

end Named

theorem steps_of_isName {name : Bytes} (hname : IsName name) : steps ⟨name⟩ = [name] := by
  rw [steps, partsBetween_of_notMem hname.2.1]
  simp [hname.1]

theorem Named.address_append {p : Path} {name : Bytes} (hp : Named p name) {s : String}
    (hname : IsName (name ++ bytesOf s)) (fs : FileSystem) :
    fs.address (p.append s) = (fs.address p).dropLast ++ [name ++ bytesOf s] := by
  rw [hp.address_append_eq, steps_of_isName hname, List.foldl_cons, List.foldl_nil,
    Named.step_eq hname]

theorem foldl_step_of_forall {names : List Bytes} (hnames : ∀ name ∈ names, IsName name)
    (loc : Address) : names.foldl step loc = loc ++ names := by
  induction names generalizing loc with
  | nil => exact (List.append_nil loc).symm
  | cons name names ih =>
    rw [List.foldl_cons, Named.step_eq (hnames name List.mem_cons_self),
      ih (fun n hn ↦ hnames n (List.mem_cons_of_mem _ hn)), List.append_assoc,
      List.singleton_append]

/-! ### Entries of directories -/

section

variable (p : Path) {name : Bytes}

theorem isAbsolute_of_notMem (hslash : Path.slash ∉ name) : (⟨name⟩ : Path).isAbsolute = false := by
  cases name with
  | nil => rfl
  | cons b bs =>
    rw [List.mem_cons, not_or] at hslash
    simp [Path.isAbsolute, Ne.symm hslash.1]

/-- What stands before a relative path that is joined names what the path of the directory does. -/
theorem partsBetween_join {q : Path} (hq : q.isAbsolute = false) : ∃ front,
    partsBetween Path.slash (p.join q).bytes = front ++ partsBetween Path.slash q.bytes ∧
      front.filter (· ≠ []) = steps p := by
  rw [Path.join, hq, if_neg Bool.false_ne_true, steps]
  rcases List.eq_nil_or_concat p.bytes with hnil | ⟨bs, b, hlast⟩
  · exact ⟨[], by simp [hnil], by simp [hnil, partsBetween]⟩
  · rw [List.concat_eq_append] at hlast
    by_cases hb : b = Path.slash
    · refine ⟨partsBetween Path.slash bs, ?_, ?_⟩
      · simpa [hlast, hb] using partsBetween_append_separator bs q.bytes
      · rw [hlast, hb, partsBetween_append_separator, List.filter_append]
        simp [partsBetween]
    · refine ⟨partsBetween Path.slash p.bytes, ?_, rfl⟩
      simpa [hlast, hb] using partsBetween_append_separator p.bytes q.bytes

theorem steps_join_of_relative {q : Path} (hq : q.isAbsolute = false) :
    steps (p.join q) = steps p ++ steps q := by
  obtain ⟨front, hparts, hfront⟩ := partsBetween_join p hq
  rw [steps, hparts, List.filter_append, hfront]
  rfl

theorem steps_join (hslash : Path.slash ∉ name) :
    steps (p.join ⟨name⟩) = steps p ++ if name = [] then [] else [name] := by
  rw [steps_join_of_relative p (isAbsolute_of_notMem hslash)]
  congr 1
  rw [steps, partsBetween_of_notMem hslash]
  by_cases hname : name = [] <;> simp [hname]

theorem isAbsolute_join_of_relative {q : Path} (hq : q.isAbsolute = false) :
    (p.join q).isAbsolute = p.isAbsolute := by
  rw [Path.join, hq, if_neg Bool.false_ne_true]
  rcases p with ⟨_ | ⟨b, bs⟩⟩
  · simpa [Path.isAbsolute] using hq
  · simp [Path.isAbsolute]

theorem address_join_of_relative (fs : FileSystem) {q : Path} (hq : q.isAbsolute = false) :
    fs.address (p.join q) = (steps q).foldl step (fs.address p) := by
  rw [address_eq, address_eq, start, start, isAbsolute_join_of_relative p hq,
    steps_join_of_relative p hq, List.foldl_append]

/-- A path that has been joined ends in what it has been joined with. -/
theorem named_of_named_join {q : Path} (hq : q.isAbsolute = false) {last : Bytes}
    (hlast : Named (p.join q) last) : Named q last := by
  obtain ⟨front, hparts, hname⟩ := hlast
  obtain ⟨front', hjoin, -⟩ := partsBetween_join p hq
  obtain ⟨before, last', hq', -⟩ := exists_partsBetween Path.slash q.bytes
  rw [hjoin, hq', ← List.append_assoc] at hparts
  obtain rfl : last' = last := List.singleton_inj.mp (List.append_inj' hparts rfl).2
  exact ⟨before, hq', hname⟩

/-- What is appended to a path that is joined is appended to the whole. -/
theorem join_append {q : Path} {s : String} (hq : (q.append s).isAbsolute = q.isAbsolute) :
    p.join (q.append s) = (p.join q).append s := by
  rw [Path.join, Path.join, hq]
  split_ifs
  · rfl
  · simp [Path.append]

theorem isAbsolute_join (hslash : Path.slash ∉ name) :
    (p.join ⟨name⟩).isAbsolute = p.isAbsolute :=
  isAbsolute_join_of_relative p (isAbsolute_of_notMem hslash)

theorem named_join (hname : IsName name) : Named (p.join ⟨name⟩) name := by
  obtain ⟨front, hparts, -⟩ := partsBetween_join p (isAbsolute_of_notMem hname.2.1)
  rw [partsBetween_of_notMem hname.2.1] at hparts
  exact ⟨front, hparts, hname⟩

theorem address_join (fs : FileSystem) (hname : IsName name) :
    fs.address (p.join ⟨name⟩) = fs.address p ++ [name] := by
  rw [address_eq, address_eq, start, start, isAbsolute_join p hname.2.1,
    steps_join p hname.2.1, if_neg hname.1, List.foldl_append, List.foldl_cons, List.foldl_nil,
    Named.step_eq hname]

theorem named_of_isName (hname : IsName name) : Named ⟨name⟩ name :=
  ⟨[], by simpa using partsBetween_of_notMem hname.2.1, hname⟩

theorem address_of_isName (fs : FileSystem) (hname : IsName name) :
    fs.address ⟨name⟩ = fs.current ++ [name] := by
  rw [address_eq, start, isAbsolute_of_notMem hname.2.1, if_neg Bool.false_ne_true,
    steps_of_isName hname,
    List.foldl_cons, List.foldl_nil, Named.step_eq hname]

end

end BundleLink.FileSystem
