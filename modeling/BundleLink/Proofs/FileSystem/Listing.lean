import BundleLink.Proofs.FileSystem.Growth
import BundleLink.Proofs.Path.Order

/-!
The names in a directory are those of the entries in it (`mem_names`), each once (`nodup_names`) and
in order. When files are added, the names from before keep their order (`names_grown`).
-/

set_option autoImplicit false

namespace BundleLink.FileSystem

open BundleLink.Text

theorem nodup_eraseDups {α : Type} [BEq α] [LawfulBEq α] (l : List α) : l.eraseDups.Nodup := by
  induction hlength : l.length using Nat.strongRecOn generalizing l with
  | _ n ih =>
    cases l with
    | nil => simp
    | cons a as =>
      rw [List.eraseDups_cons, List.nodup_cons, List.mem_eraseDups, List.mem_filter]
      refine ⟨by simp, ih _ ?_ _ rfl⟩
      have hle := List.length_filter_le (fun b ↦ !b == a) as
      rw [List.length_cons] at hlength
      omega

theorem childName?_eq_some_iff (loc : Address) (e : Address × Entry) (name : Bytes) :
    childName? loc e = some name ↔ e.1 = loc ++ [name] := by
  rw [childName?]
  constructor
  · intro hname
    split at hname
    · rename_i last hlast
      split_ifs at hname with heq
      rw [heq, Option.some.inj hname]
    · cases hname
  · intro heq
    simp [heq]

/-- The names in a directory are those of the entries in it. -/
theorem mem_names (fs : FileSystem) (loc : Address) (name : Bytes) :
    name ∈ fs.names loc ↔ ∃ entry, fs.lookup? (loc ++ [name]) = some entry := by
  rw [names, List.mem_mergeSort, List.mem_eraseDups, List.mem_filterMap]
  constructor
  · rintro ⟨e, he, hname⟩
    rw [childName?_eq_some_iff] at hname
    have hfound : (fs.entries.find? fun e' ↦ e'.1 = loc ++ [name]).isSome := by
      rw [List.find?_isSome]
      exact ⟨e, he, by simpa using hname⟩
    obtain ⟨e', he'⟩ := Option.isSome_iff_exists.mp hfound
    exact ⟨e'.2, by simp [lookup?, he']⟩
  · rintro ⟨entry, hentry⟩
    refine ⟨(loc ++ [name], entry), mem_entries_of_lookup? (by simp) hentry, ?_⟩
    rw [childName?_eq_some_iff]

theorem nodup_names (fs : FileSystem) (loc : Address) : (fs.names loc).Nodup := by
  rw [names, (List.mergeSort_perm _ _).nodup_iff]
  exact nodup_eraseDups _

theorem pairwise_names (fs : FileSystem) (loc : Address) :
    (fs.names loc).Pairwise fun as bs ↦ decide (Path.compareBytes as bs ≠ .gt) = true :=
  List.pairwise_mergeSort Path.bytes_le_trans Path.bytes_le_total _

/-- The names from before more files were made, in their order. -/
theorem names_grown {fs fs' : FileSystem} (g : Grown fs fs') (loc : Address) :
    (fs'.names loc).filter (fun name ↦ (fs.lookup? (loc ++ [name])).isSome) = fs.names loc := by
  refine List.Perm.eq_of_pairwise (fun _ _ _ _ ↦ Path.eq_of_bytes_le)
    ((pairwise_names fs' loc).filter _) (pairwise_names fs loc) ?_
  rw [List.perm_ext_iff_of_nodup ((nodup_names fs' loc).filter _) (nodup_names fs loc)]
  intro name
  rw [List.mem_filter, mem_names, mem_names, Option.isSome_iff_exists]
  constructor
  · exact fun hname ↦ hname.2
  · rintro ⟨entry, hentry⟩
    refine ⟨?_, entry, hentry⟩
    rcases g.entry (loc ++ [name]) with hsame | ⟨-, content, hfile⟩
    · exact ⟨entry, hsame.trans hentry⟩
    · exact ⟨.file content, hfile⟩

/-- A directory is opened where its path leads, if it is not closed. -/
theorem openDirectory_eq_ok_iff {fs : FileSystem} {closed : List Address} {p : Path}
    {loc : Address} : fs.openDirectory closed p = .ok loc ↔
      fs.resolve p = .ok (.directory loc) ∧ loc ∉ closed := by
  rw [openDirectory]
  cases fs.resolve p with
  | error problem => simp
  | ok place =>
    cases place with
    | file loc' content => simp
    | vacant loc' => simp
    | directory loc' =>
      by_cases hclosed : loc' ∈ closed <;> simp only [hclosed, if_true, if_false]
      · simp only [reduceCtorEq, Except.ok.injEq, Place.directory.injEq, false_iff, not_and,
          not_not]
        rintro rfl
        exact hclosed
      · simp only [Except.ok.injEq, Place.directory.injEq]
        exact ⟨fun heq ↦ ⟨heq, heq ▸ hclosed⟩, fun heq ↦ heq.1⟩

end BundleLink.FileSystem
