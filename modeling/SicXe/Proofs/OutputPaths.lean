import SicXe.Proofs.Cutting
import SicXe.Proofs.FileWrites

/-!
# Where output paths lead

An output path is the path of the source with another extension. It leads to the place of the source
only if the source has that extension itself, and output paths with different extensions lead to
different places, whatever dots and slashes the path of the source has:

* `Path.stem_append`, `Path.exists_behind_stem`: what an extension is cut from.
* `Path.withExtension_eq_self_iff`: when a path has an extension already.
* `FileStore.apart_of_name_ne`: two names in one directory are different places.
* `FileStore.apart_withExtension`, `FileStore.apart_of_extension_ne`: the places of output paths.
-/

namespace SicXe

/-! ## Extensions -/

namespace Path

variable {path extension extension' front name : Text}

/-- An extension: a dot, and behind it one or more bytes that are neither dots nor slashes. -/
def IsExtension (extension : Text) : Prop :=
  extension.head? = some dot ∧ extension.tail ≠ [] ∧ slash ∉ extension.tail ∧ dot ∉ extension.tail

instance (extension : Text) : Decidable (IsExtension extension) :=
  inferInstanceAs (Decidable (_ ∧ _))

theorem IsExtension.exists_eq (h : IsExtension extension) :
    ∃ letters, extension = dot :: letters ∧ letters ≠ [] ∧ slash ∉ letters ∧ dot ∉ letters := by
  obtain ⟨hhead, hne, hletters⟩ := h
  obtain ⟨letters, rfl⟩ := List.head?_eq_some_iff.1 hhead
  exact ⟨letters, rfl, hne, hletters⟩

theorem IsExtension.slash_not_mem (h : IsExtension extension) : slash ∉ extension := by
  obtain ⟨letters, rfl, -, hslash, -⟩ := h.exists_eq
  rw [List.mem_cons, not_or]
  exact ⟨by decide, hslash⟩

/-- A name with an extension is the name of an own place. -/
theorem IsExtension.append_ne (h : IsExtension extension) (name : Text) :
    name ++ extension ≠ [] ∧ name ++ extension ≠ here ∧ name ++ extension ≠ up := by
  obtain ⟨letters, rfl, hne, -, hdot⟩ := h.exists_eq
  -- the last byte is a letter, and the names with a meaning of their own end with a dot
  have hlast : (name ++ dot :: letters).getLast? ≠ some dot := by
    rw [← List.singleton_append, ← List.append_assoc, List.getLast?_append]
    cases hb : letters.getLast? with
    | none => exact absurd (List.getLast?_eq_none_iff.1 hb) hne
    | some b =>
      rw [Option.some_or, Ne, Option.some.injEq]
      rintro rfl
      exact hdot (List.mem_of_getLast? hb)
  refine ⟨by simp, ?_, ?_⟩
  · intro heq
    exact hlast (heq ▸ rfl)
  · intro heq
    exact hlast (heq ▸ rfl)

theorem stem_append (h : IsExtension extension) (front : Text) :
    stem (front ++ extension) = front := by
  obtain ⟨letters, rfl, -, hslash, hdot⟩ := h.exists_eq
  have hletters : ∀ b ∈ letters.reverse, (b != slash && b != dot) = true := by
    intro b hb
    rw [Bool.and_eq_true, bne_iff_ne, bne_iff_ne]
    rw [List.mem_reverse] at hb
    exact ⟨fun heq => hslash (heq ▸ hb), fun heq => hdot (heq ▸ hb)⟩
  have hdrop : (front ++ dot :: letters).reverse.dropWhile (fun b => b != slash && b != dot) =
      dot :: front.reverse := by
    rw [List.reverse_append, List.reverse_cons, List.append_assoc,
      List.dropWhile_append_of_pos hletters]
    rfl
  rw [stem, hdrop]
  exact List.reverse_reverse front

theorem exists_behind_stem (path : Text) : ∃ behind, path = stem path ++ behind ∧ slash ∉ behind := by
  have hpath := List.takeWhile_append_dropWhile (p := fun b => b != slash && b != dot)
    (l := path.reverse)
  have hletters : slash ∉ path.reverse.takeWhile fun b => b != slash && b != dot := by
    intro hslash
    have hall := List.all_eq_true.1 List.all_takeWhile slash hslash
    exact absurd hall (by decide)
  unfold stem
  generalize path.reverse.takeWhile (fun b => b != slash && b != dot) = letters at hpath hletters
  cases hdrop : path.reverse.dropWhile fun b => b != slash && b != dot with
  | nil => exact ⟨[], (List.append_nil _).symm, List.not_mem_nil⟩
  | cons b rest =>
    dsimp only
    split
    case isTrue hdot =>
      refine ⟨dot :: letters.reverse, ?_, ?_⟩
      · rw [← List.reverse_reverse path, ← hpath, hdrop, hdot]
        simp
      · rw [List.mem_cons, List.mem_reverse, not_or]
        exact ⟨by decide, hletters⟩
    case isFalse => exact ⟨[], (List.append_nil _).symm, List.not_mem_nil⟩

theorem withExtension_eq_self_iff (h : IsExtension extension) :
    withExtension path extension = path ↔ extension <:+ path := by
  constructor
  · intro heq
    exact ⟨stem path, heq⟩
  · rintro ⟨front, rfl⟩
    rw [withExtension, stem_append h]

/-- An extension that was put on is replaced by another one. -/
theorem withExtension_withExtension (h : IsExtension extension) :
    withExtension (withExtension path extension) extension' = withExtension path extension' := by
  rw [withExtension, withExtension, stem_append h, withExtension]

/-! ## Names in a directory -/

theorem split_append_slash (front behind : Text) :
    Text.split slash (front ++ slash :: behind) =
      Text.split slash front ++ Text.split slash behind := by
  induction front with
  | nil => exact Text.split_cons_self behind
  | cons b front ih =>
    by_cases hb : b = slash
    · rw [hb, List.cons_append, Text.split_cons_self, Text.split_cons_self, ih]
      rfl
    · obtain ⟨part, rest, hparts⟩ := List.exists_cons_of_ne_nil (Text.split_ne_nil slash front)
      rw [hparts, List.cons_append] at ih
      rw [List.cons_append, Text.split_cons_of_ne hb ih, Text.split_cons_of_ne hb hparts]
      rfl

/-- The beginning of a path up to its last slash, by the names on the way that it stands for. -/
def IsDirectoryPart (directory : Text) (way : List Text) : Prop :=
  ∀ name, slash ∉ name → Text.split slash (directory ++ name) = way ++ [name]

/-- Every path is a directory part and a name. -/
theorem exists_directoryPart (path : Text) : ∃ directory way name,
    path = directory ++ name ∧ slash ∉ name ∧ IsDirectoryPart directory way := by
  by_cases hslash : slash ∈ path
  · obtain ⟨name, front, hpath, hname⟩ :=
      List.eq_append_cons_of_mem (List.mem_reverse.2 hslash)
    refine ⟨front.reverse ++ [slash], Text.split slash front.reverse, name.reverse, ?_, ?_, ?_⟩
    · rw [← List.reverse_reverse path, hpath]
      simp
    · rwa [List.mem_reverse]
    · intro other hother
      rw [List.append_assoc, List.singleton_append, split_append_slash,
        Text.split_of_not_mem hother]
  · exact ⟨[], [], path, rfl, hslash, fun name hname => Text.split_of_not_mem hname⟩

end Path

/-! ## Places -/

namespace FileStore

open SicXe.Path (IsDirectoryPart IsExtension slash here up withExtension stem)

variable {store : FileStore} {path directory name other extension extension' : Text}
variable {way names before : List Text}

theorem foldlM_of_locate (h : store.locate path = .ok names) :
    ((path.split slash).filter (· ≠ [])).foldlM store.step [] = .ok names := by
  unfold locate at h
  split at h
  · cases h
  · exact h

/-- The last name of a path leads on from the place of its directory. -/
theorem exists_directory_of_locate (hdirectory : IsDirectoryPart directory way)
    (hname : slash ∉ name) (h : store.locate (directory ++ name) = .ok names) :
    ∃ before, (way.filter (· ≠ [])).foldlM store.step [] = .ok before ∧
      if name = [] then names = before else store.step before name = .ok names := by
  have hway := foldlM_of_locate h
  rw [hdirectory name hname, List.filter_append, List.foldlM_append] at hway
  cases hbefore : (way.filter (· ≠ [])).foldlM store.step [] with
  | error error =>
    rw [hbefore] at hway
    cases hway
  | ok before =>
    rw [hbefore] at hway
    refine ⟨before, rfl, ?_⟩
    split
    case isTrue hnil =>
      subst hnil
      cases hway
      rfl
    case isFalse hne =>
      rw [List.filter_cons_of_pos (by simpa using hne)] at hway
      have hlast : [name].foldlM store.step before = .ok names := hway
      simpa using hlast

/-- What the next name of a path can do. -/
theorem step_cases (h : store.step before name = .ok names) :
    name = here ∧ names = before ∨ name = up ∧ names = before.dropLast ∨ names = before ++ [name] := by
  unfold step at h
  cases hnode : store.node? before with
  | none => simp [hnode] at h
  | some node =>
    cases node with
    | file content => simp [hnode] at h
    | directory =>
      simp only [hnode] at h
      by_cases hhere : name = here
      · rw [if_pos hhere] at h
        cases h
        exact .inl ⟨hhere, rfl⟩
      rw [if_neg hhere] at h
      by_cases hup : name = up
      · rw [if_pos hup] at h
        split at h
        · cases h
        · cases h
          exact .inr (.inl ⟨hup, rfl⟩)
      · rw [if_neg hup] at h
        cases h
        exact .inr (.inr rfl)

/-- **Two names in one directory** lead to different places, if one of them is a name of its own. -/
theorem apart_of_name_ne (hdirectory : IsDirectoryPart directory way) (hname : slash ∉ name)
    (hother : slash ∉ other) (hown : other ≠ [] ∧ other ≠ here ∧ other ≠ up)
    (hne : name ≠ other) : store.Apart (directory ++ name) (directory ++ other) := by
  intro names hlocate hlocate'
  obtain ⟨before, hbefore, hlast⟩ := exists_directory_of_locate hdirectory hname hlocate
  obtain ⟨before', hbefore', hlast'⟩ := exists_directory_of_locate hdirectory hother hlocate'
  cases hbefore.symm.trans hbefore'
  rw [if_neg hown.1] at hlast'
  have hnames : names = before ++ [other] := by
    rcases step_cases hlast' with ⟨hhere, -⟩ | ⟨hup, -⟩ | hnames
    · exact absurd hhere hown.2.1
    · exact absurd hup hown.2.2
    · exact hnames
  -- the other name leads to a place of its own, too, or not into the directory at all
  have hlength := congrArg List.length hnames
  rw [List.length_append, List.length_singleton] at hlength
  split at hlast
  · rw [hlast] at hlength
    omega
  · rcases step_cases hlast with ⟨-, hlast⟩ | ⟨-, hlast⟩ | hlast
    · rw [hlast] at hlength
      omega
    · rw [hlast, List.length_dropLast] at hlength
      omega
    · have hlists := List.append_cancel_left (hlast.symm.trans hnames)
      exact hne (List.singleton_inj.1 hlists)

/-- **An output path** leads to another place than the path it is made from, unless that has the
extension already. -/
theorem apart_withExtension (hextension : IsExtension extension) (h : ¬ extension <:+ path) :
    store.Apart path (withExtension path extension) := by
  obtain ⟨behind, hpath, hbehind⟩ := Path.exists_behind_stem path
  obtain ⟨directory, way, name, hstem, hname, hdirectory⟩ := Path.exists_directoryPart (stem path)
  have hne : name ++ behind ≠ name ++ extension := by
    intro heq
    refine h ⟨stem path, ?_⟩
    rw [← List.append_cancel_left heq]
    exact hpath.symm
  have hplaces : store.Apart (directory ++ (name ++ behind)) (directory ++ (name ++ extension)) :=
    apart_of_name_ne hdirectory (by simp [hname, hbehind])
      (by simp [hname, hextension.slash_not_mem]) (hextension.append_ne name) hne
  rwa [← List.append_assoc, ← List.append_assoc, ← hstem, ← hpath] at hplaces

/-- **Output paths** with different extensions lead to different places. -/
theorem apart_of_extension_ne (hextension : IsExtension extension)
    (hextension' : IsExtension extension') (h : extension ≠ extension') :
    store.Apart (withExtension path extension) (withExtension path extension') := by
  obtain ⟨directory, way, name, hstem, hname, hdirectory⟩ := Path.exists_directoryPart (stem path)
  unfold withExtension
  rw [hstem, List.append_assoc, List.append_assoc]
  exact apart_of_name_ne hdirectory (by simp [hname, hextension.slash_not_mem])
    (by simp [hname, hextension'.slash_not_mem]) (hextension'.append_ne name)
    fun heq => h (List.append_cancel_left heq)

end FileStore

end SicXe
