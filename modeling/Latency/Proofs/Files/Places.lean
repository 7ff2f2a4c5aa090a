import Mathlib.Data.List.Infix
import Mathlib.Tactic.Common
import Latency.Files
import Latency.Proofs.Results
/-!
# Places in the tree

There are no links in the tree, so where a path leads is known without looking (`Files.place`); the
tree only decides whether it gets there.  Each operation is told in these words: what stands at
every place after it.
-/

namespace Latency

namespace Path

theorem collapse_cons_of_ne {part : String} (h : part ≠ "..") (seen rest : List String) :
    collapse seen (part :: rest) = collapse (part :: seen) rest := by
  simp [collapse]

theorem collapse_snoc {part : String} (h : part ≠ "..") (seen parts : List String) :
    collapse seen (parts ++ [part]) = collapse seen parts ++ [part] := by
  induction parts generalizing seen with
  | nil =>
    rw [List.nil_append, collapse_cons_of_ne h]
    simp [collapse]
  | cons first rest ih =>
    by_cases hup : first = ".."
    · subst hup
      exact ih seen.tail
    · rw [List.cons_append, collapse_cons_of_ne hup, collapse_cons_of_ne hup]
      exact ih (first :: seen)

theorem collapse_of_notMem {parts : List String} (h : ".." ∉ parts) (seen : List String) :
    collapse seen parts = seen.reverse ++ parts := by
  induction parts generalizing seen with
  | nil => simp [collapse]
  | cons first rest ih =>
    rw [List.mem_cons, not_or] at h
    obtain ⟨hfirst, hrest⟩ := h
    rw [collapse_cons_of_ne (Ne.symm hfirst), ih hrest, List.reverse_cons, List.append_assoc]
    rfl

structure IsName (name : String) : Prop where
  slash : '/' ∉ name.toList
  ne_empty : name ≠ ""
  ne_here : name ≠ "."
  ne_up : name ≠ ".."

theorem ofString_of_isName {name : String} (h : IsName name) : ofString name = ⟨"", [name]⟩ := by
  have hpieces : pieces name = [name] := by
    have hsplit : name.toList.splitOn '/' = [name.toList] := by
      apply List.splitOnP_eq_singleton
      intro c hc
      have hne : c ≠ '/' := fun hslash => h.slash (hslash ▸ hc)
      exact beq_false_of_ne hne
    rw [pieces, hsplit, List.map_singleton, String.ofList_toList]
  have hanchor : (ofString name).anchor = "" := by
    unfold ofString
    simp only
    split
    · next hslash => exact absurd (hslash ▸ List.mem_cons_self) h.slash
    · next hslash => exact absurd (hslash ▸ List.mem_cons_self) h.slash
    · next hslash => exact absurd (hslash ▸ List.mem_cons_self) h.slash
    · rfl
  have hparts : (ofString name).parts = [name] := by
    rw [ofString, hpieces]
    simp [h.ne_empty, h.ne_here]
  cases hpath : ofString name with
  | mk anchor parts =>
    rw [hpath] at hanchor hparts
    obtain rfl : anchor = "" := hanchor
    obtain rfl : parts = [name] := hparts
    rfl

theorem child_eq {name : String} (h : IsName name) (p : Path) :
    p.child name = ⟨p.anchor, p.parts ++ [name]⟩ := by
  rw [child, ofString_of_isName h]
  rfl

end Path

namespace Files

variable {fs fs' : Files} {p : Path}

def place (fs : Files) (p : Path) : List String :=
  Path.collapse [] (fs.base.join p).parts

theorem place_congr (h : fs'.base = fs.base) (p : Path) : fs'.place p = fs.place p := by
  rw [place, place, h]

theorem place_child {name : String} (h : Path.IsName name) (fs : Files) (p : Path) :
    fs.place (p.child name) = fs.place p ++ [name] := by
  have hparts : (fs.base.join (p.child name)).parts = (fs.base.join p).parts ++ [name] := by
    rw [Path.child_eq h]
    unfold Path.join Path.isAbsolute
    simp only
    split
    · rfl
    · exact (List.append_assoc ..).symm
  rw [place, hparts, Path.collapse_snoc h.ne_up]
  rfl

theorem get?_nil (fs : Files) : fs.get? [] = some .directory := by
  rfl

theorem walk_ok {seen parts found : List String} (h : fs.walk seen parts = .ok found) :
    found.reverse = Path.collapse seen parts := by
  induction parts generalizing seen with
  | nil =>
    obtain rfl := Except.ok.inj h
    rfl
  | cons part rest ih =>
    unfold walk at h
    split at h
    · cases h
    · cases h
    split at h
    · next hup =>
      subst hup
      exact ih h
    · next hup =>
      rw [Path.collapse_cons_of_ne hup]
      split at h
      · cases h
      split at h
      · exact ih h
      · cases h

/-- What stands in the tree decides whether a path is located, and only by the walk. -/
theorem locate_eq_walk {parts : List String} (h : fs.locate p = .ok parts)
    (hbase : fs'.base = fs.base) :
    fs'.locate p = (fs'.walk [] (fs.base.join p).parts).map List.reverse := by
  unfold locate at h ⊢
  rw [hbase]
  simp only at h ⊢
  split at h
  · cases h
  · next hnul =>
    rw [if_neg hnul]
    split at h
    · cases h
    · next hlong => rw [if_neg hlong]

theorem walk_of_locate {parts : List String} (h : fs.locate p = .ok parts) :
    fs.walk [] (fs.base.join p).parts = .ok parts.reverse := by
  have hwalk := locate_eq_walk h rfl
  rw [h] at hwalk
  obtain ⟨found, hfound, hparts⟩ := map_ok hwalk.symm
  rw [hfound, ← hparts, List.reverse_reverse]

theorem locate_ok {parts : List String} (h : fs.locate p = .ok parts) : parts = fs.place p := by
  have hplace := walk_ok (walk_of_locate h)
  rwa [List.reverse_reverse] at hplace

theorem entry?_ok {e : Entry} (h : fs.entry? p = .ok e) :
    fs.locate p = .ok (fs.place p) ∧ fs.get? (fs.place p) = some e := by
  unfold entry? at h
  split at h
  · cases h
  · next parts hlocate =>
    obtain rfl := locate_ok hlocate
    split at h
    · next hget =>
      rw [hget, Except.ok.inj h]
      exact ⟨hlocate, rfl⟩
    · cases h

theorem entry?_of_locate {e : Entry} (hlocate : fs.locate p = .ok (fs.place p))
    (hget : fs.get? (fs.place p) = some e) : fs.entry? p = .ok e := by
  unfold entry?
  simp only [hlocate, hget]

/-! ## Trees that grow -/

/-- Where something stood something stands, and a directory where a directory stood. -/
structure Keeps (fs fs' : Files) : Prop where
  base : fs'.base = fs.base
  directory : ∀ q, fs.get? q = some .directory → fs'.get? q = some .directory
  isSome : ∀ q, (fs.get? q).isSome = true → (fs'.get? q).isSome = true

theorem Keeps.walk (h : Keeps fs fs') {seen parts found : List String}
    (hwalk : fs.walk seen parts = .ok found) : fs'.walk seen parts = .ok found := by
  induction parts generalizing seen with
  | nil => exact hwalk
  | cons part rest ih =>
    unfold Files.walk at hwalk ⊢
    split at hwalk
    · cases hwalk
    · cases hwalk
    next hdirectory =>
    rw [h.directory _ hdirectory]
    simp only
    split at hwalk
    · next hup =>
      rw [if_pos hup]
      exact ih hwalk
    · next hup =>
      rw [if_neg hup]
      split at hwalk
      · cases hwalk
      · next hname =>
        rw [if_neg hname]
        split at hwalk
        · next hthere =>
          rw [if_pos (hthere.imp_left (h.isSome _))]
          exact ih hwalk
        · cases hwalk

theorem Keeps.trans {fs'' : Files} (h : Keeps fs fs') (h' : Keeps fs' fs'') : Keeps fs fs'' where
  base := h'.base.trans h.base
  directory := fun q hdirectory => h'.directory q (h.directory q hdirectory)
  isSome := fun q hsome => h'.isSome q (h.isSome q hsome)

theorem Keeps.locate (h : Keeps fs fs') (hlocate : fs.locate p = .ok (fs.place p)) :
    fs'.locate p = .ok (fs'.place p) := by
  rw [locate_eq_walk hlocate h.base, h.walk (walk_of_locate hlocate), place_congr h.base]
  exact congrArg Except.ok (List.reverse_reverse _)

theorem Keeps.entry?_directory (h : Keeps fs fs') (hentry : fs.entry? p = .ok .directory) :
    fs'.entry? p = .ok .directory := by
  obtain ⟨hlocate, hget⟩ := entry?_ok hentry
  apply entry?_of_locate (h.locate hlocate)
  rw [place_congr h.base]
  exact h.directory _ hget

/-- All entries stay as they are, and what is new is a directory. -/
structure MoreDirectories (fs fs' : Files) : Prop where
  base : fs'.base = fs.base
  get? : ∀ q, fs'.get? q = fs.get? q ∨ fs.get? q = none ∧ fs'.get? q = some .directory

theorem MoreDirectories.refl (fs : Files) : MoreDirectories fs fs :=
  ⟨rfl, fun _ => .inl rfl⟩

theorem MoreDirectories.trans {fs'' : Files} (h : MoreDirectories fs fs')
    (h' : MoreDirectories fs' fs'') : MoreDirectories fs fs'' where
  base := h'.base.trans h.base
  get? := by
    intro q
    rcases h.get? q with hsame | ⟨hnone, hnew⟩
    · rw [← hsame]
      exact h'.get? q
    · rcases h'.get? q with hsame' | ⟨hnone', -⟩
      · exact .inr ⟨hnone, hsame'.trans hnew⟩
      · rw [hnew] at hnone'
        cases hnone'

theorem MoreDirectories.keeps (h : MoreDirectories fs fs') : Keeps fs fs' where
  base := h.base
  directory := by
    intro q hdirectory
    rcases h.get? q with hsame | ⟨hnone, -⟩
    · rw [hsame, hdirectory]
    · rw [hdirectory] at hnone
      cases hnone
  isSome := by
    intro q hsome
    rcases h.get? q with hsame | ⟨-, hnew⟩
    · rw [hsame, hsome]
    · rw [hnew]
      rfl

theorem MoreDirectories.file_iff (h : MoreDirectories fs fs') (q : List String)
    (octets : List UInt8) :
    fs'.get? q = some (.file octets) ↔ fs.get? q = some (.file octets) := by
  rcases h.get? q with hsame | ⟨hnone, hnew⟩
  · rw [hsame]
  · simp [hnone, hnew]

/-! ## Putting and removing entries -/

theorem lookup_filter (keep : List String → Bool) (entries : List (List String × Entry))
    (q : List String) :
    (entries.filter fun x => keep x.1).lookup q = if keep q then entries.lookup q else none := by
  induction entries with
  | nil => simp
  | cons x rest ih =>
    obtain ⟨parts, e⟩ := x
    by_cases hq : q = parts
    · subst hq
      cases hkeep : keep q with
      | true => simp [hkeep]
      | false => simpa [hkeep] using ih
    · have hne : (q == parts) = false := beq_false_of_ne hq
      cases hkeep : keep parts with
      | true => simp [hkeep, List.lookup_cons, hne, ih]
      | false => simp [hkeep, List.lookup_cons, hne, ih]

theorem get?_put_self {parts : List String} (hparts : parts ≠ []) (e : Entry) (fs : Files) :
    (fs.put parts e).get? parts = some e := by
  have hnone : (fs.entries.filter fun x => x.1 != parts).lookup parts = none := by
    rw [lookup_filter (· != parts)]
    simp
  rw [get?, if_neg hparts, put, List.lookup_append, hnone]
  simp

theorem get?_put_of_ne {parts q : List String} (hne : q ≠ parts) (e : Entry) (fs : Files) :
    (fs.put parts e).get? q = fs.get? q := by
  unfold get?
  split
  · rfl
  · have hfilter : (fs.entries.filter fun x => x.1 != parts).lookup q = fs.entries.lookup q := by
      rw [lookup_filter (· != parts)]
      simp [hne]
    rw [put, List.lookup_append, hfilter]
    simp [List.lookup_cons, beq_false_of_ne hne]

theorem ne_nil_of_get?_ne {parts : List String} (h : fs.get? parts ≠ some .directory) :
    parts ≠ [] := by
  rintro rfl
  exact h fs.get?_nil

theorem keeps_put {parts : List String} (h : fs.get? parts ≠ some .directory) (e : Entry) :
    Keeps fs (fs.put parts e) where
  base := rfl
  directory := by
    intro q hdirectory
    have hne : q ≠ parts := by
      rintro rfl
      exact h hdirectory
    rw [get?_put_of_ne hne, hdirectory]
  isSome := by
    intro q hsome
    by_cases hq : q = parts
    · subst hq
      rw [get?_put_self (ne_nil_of_get?_ne h)]
      rfl
    · rw [get?_put_of_ne hq, hsome]

theorem moreDirectories_put {parts : List String} (h : fs.get? parts = none) :
    MoreDirectories fs (fs.put parts .directory) where
  base := rfl
  get? := by
    intro q
    by_cases hq : q = parts
    · subst hq
      have hne : fs.get? q ≠ some .directory := by
        rw [h]
        simp
      exact .inr ⟨h, get?_put_self (ne_nil_of_get?_ne hne) _ fs⟩
    · exact .inl (get?_put_of_ne hq _ fs)

/-! ## Changes below a place -/

/-- All files that are not below a place, or at it, are the same. -/
structure SameElsewhere (top : List String) (fs fs' : Files) : Prop where
  base : fs'.base = fs.base
  file_iff : ∀ q octets, ¬ top <+: q →
    (fs'.get? q = some (.file octets) ↔ fs.get? q = some (.file octets))

theorem SameElsewhere.refl (top : List String) (fs : Files) : SameElsewhere top fs fs :=
  ⟨rfl, fun _ _ _ => .rfl⟩

theorem SameElsewhere.trans {top : List String} {fs'' : Files} (h : SameElsewhere top fs fs')
    (h' : SameElsewhere top fs' fs'') : SameElsewhere top fs fs'' where
  base := h'.base.trans h.base
  file_iff := fun q octets hq => (h'.file_iff q octets hq).trans (h.file_iff q octets hq)

theorem MoreDirectories.sameElsewhere (h : MoreDirectories fs fs') (top : List String) :
    SameElsewhere top fs fs' where
  base := h.base
  file_iff := fun q octets _ => h.file_iff q octets

/-! ## Operations on paths -/

theorem makeDirectory_ok {made : Files} (h : fs.makeDirectory p = .ok made) :
    MoreDirectories fs made ∧ made.entry? p = .ok .directory := by
  unfold makeDirectory at h
  split at h
  · cases h
  · next parts hlocate =>
    obtain rfl := locate_ok hlocate
    split at h
    · cases h
    · next hnone =>
      obtain rfl := Except.ok.inj h
      have hne : fs.get? (fs.place p) ≠ some .directory := by
        rw [hnone]
        simp
      refine ⟨moreDirectories_put hnone, entry?_of_locate ((keeps_put hne _).locate hlocate) ?_⟩
      exact get?_put_self (ne_nil_of_get?_ne hne) _ fs

theorem orDirectory_ok {e : FileError} {made : Files} (h : fs.orDirectory e p = .ok made) :
    made = fs ∧ fs.entry? p = .ok .directory := by
  unfold orDirectory at h
  split at h
  · next hdirectory =>
    refine ⟨(Except.ok.inj h).symm, ?_⟩
    unfold isDirectory asks at hdirectory
    split at hdirectory
    · next e hentry =>
      rw [hentry]
      cases e with
      | file octets => cases hdirectory
      | directory => rfl
    · cases hdirectory
    · cases hdirectory
  · cases h
  · cases h

theorem makeDirectoriesIn_ok {anchor : String} {parts : List String} {made : Files}
    (h : makeDirectoriesIn anchor fs parts = .ok made) :
    MoreDirectories fs made ∧ made.entry? ⟨anchor, parts.reverse⟩ = .ok .directory := by
  induction parts generalizing made with
  | nil =>
    obtain ⟨rfl, hentry⟩ := orDirectory_ok h
    exact ⟨.refl _, hentry⟩
  | cons part above ih =>
    unfold makeDirectoriesIn at h
    simp only at h
    split at h
    · next hmade =>
      obtain rfl := Except.ok.inj h
      exact makeDirectory_ok hmade
    · split at h
      · cases h
      · next below hbelow =>
        have hgrown := (ih hbelow).1
        split at h
        · next hmade =>
          obtain rfl := Except.ok.inj h
          obtain ⟨hmore, hentry⟩ := makeDirectory_ok hmade
          exact ⟨hgrown.trans hmore, hentry⟩
        · obtain ⟨rfl, hentry⟩ := orDirectory_ok h
          exact ⟨hgrown, hentry⟩
    · obtain ⟨rfl, hentry⟩ := orDirectory_ok h
      exact ⟨.refl _, hentry⟩

theorem makeDirectories_ok {made : Files} (h : fs.makeDirectories p = .ok made) :
    MoreDirectories fs made ∧ made.entry? p = .ok .directory := by
  have hmade := makeDirectoriesIn_ok h
  rwa [List.reverse_reverse] at hmade

theorem write_ok {octets : List UInt8} {written : Files} (h : fs.write p octets = .ok written) :
    fs.locate p = .ok (fs.place p) ∧ fs.get? (fs.place p) ≠ some .directory ∧
      written = fs.put (fs.place p) (.file octets) := by
  unfold write at h
  split at h
  · cases h
  · next parts hlocate =>
    obtain rfl := locate_ok hlocate
    split at h
    · cases h
    · next hfile => exact ⟨hlocate, hfile, (Except.ok.inj h).symm⟩

theorem keeps_of_write_ok {octets : List UInt8} {written : Files}
    (h : fs.write p octets = .ok written) : Keeps fs written := by
  obtain ⟨-, hfile, rfl⟩ := write_ok h
  exact keeps_put hfile _

theorem get?_of_write_ok {octets : List UInt8} {written : Files}
    (h : fs.write p octets = .ok written) :
    written.get? (fs.place p) = some (.file octets) ∧
      ∀ q, q ≠ fs.place p → written.get? q = fs.get? q := by
  obtain ⟨-, hfile, rfl⟩ := write_ok h
  exact ⟨get?_put_self (ne_nil_of_get?_ne hfile) _ fs, fun q hq => get?_put_of_ne hq _ fs⟩

theorem sameElsewhere_of_write_ok {octets : List UInt8} {written : Files}
    (h : fs.write p octets = .ok written) {top : List String} (htop : top <+: fs.place p) :
    SameElsewhere top fs written where
  base := (keeps_of_write_ok h).base
  file_iff := by
    intro q octets' hq
    have hne : q ≠ fs.place p := by
      rintro rfl
      exact hq htop
    rw [(get?_of_write_ok h).2 q hne]

/-- What was written is read back. -/
theorem read_of_write_ok {octets : List UInt8} {written : Files}
    (h : fs.write p octets = .ok written) : written.read p = .ok octets := by
  have hkeeps := keeps_of_write_ok h
  have hentry : written.entry? p = .ok (.file octets) := by
    apply entry?_of_locate (hkeeps.locate (write_ok h).1)
    rw [place_congr hkeeps.base]
    exact (get?_of_write_ok h).1
  rw [read, hentry]

theorem removeTree_eq (h : fs.entry? p = .ok .directory) :
    fs.removeTree p =
      { fs with entries := fs.entries.filter fun x => !(fs.place p).isPrefixOf x.1 } := by
  obtain ⟨hlocate, hget⟩ := entry?_ok h
  rw [removeTree, hlocate]
  simp only [hget]

theorem get?_removeTree_of_prefix (h : fs.entry? p = .ok .directory) {q : List String}
    (hq : fs.place p <+: q) (hne : q ≠ []) : (fs.removeTree p).get? q = none := by
  rw [removeTree_eq h, get?, if_neg hne,
    lookup_filter fun parts => !(fs.place p).isPrefixOf parts]
  simp [List.isPrefixOf_iff_prefix.2 hq]

theorem get?_removeTree_of_not_prefix (h : fs.entry? p = .ok .directory) {q : List String}
    (hq : ¬ fs.place p <+: q) : (fs.removeTree p).get? q = fs.get? q := by
  have hkeep : (fs.place p).isPrefixOf q = false :=
    Bool.eq_false_iff.2 fun hunder => hq (List.isPrefixOf_iff_prefix.1 hunder)
  rw [removeTree_eq h]
  unfold get?
  split
  · rfl
  · rw [lookup_filter fun parts => !(fs.place p).isPrefixOf parts, hkeep]
    rfl

theorem walk_ne_nameTooLong {seen parts found : List String}
    (h : fs.walk seen parts = .ok found) (fs' : Files) :
    fs'.walk seen parts ≠ .error .nameTooLong := by
  induction parts generalizing seen with
  | nil => simp [walk]
  | cons part rest ih =>
    unfold walk at h ⊢
    split at h
    · cases h
    · cases h
    split
    · simp
    · simp
    split at h
    · next hup =>
      rw [if_pos hup]
      exact ih h
    · next hup =>
      rw [if_neg hup]
      split at h
      · cases h
      · next hname =>
        rw [if_neg hname]
        split at h
        · split
          · exact ih h
          · simp
        · cases h

/-- Nothing stands any more under the path of a tree that was removed. -/
theorem contains_removeTree (h : fs.entry? p = .ok .directory) (hplace : fs.place p ≠ []) :
    (fs.removeTree p).contains p = .ok false := by
  obtain ⟨hlocate, -⟩ := entry?_ok h
  have hbase : (fs.removeTree p).base = fs.base := by rw [removeTree_eq h]
  have hnone := get?_removeTree_of_prefix h List.prefix_rfl hplace
  have hshort := walk_ne_nameTooLong (walk_of_locate hlocate) (fs.removeTree p)
  have hwalk := locate_eq_walk hlocate hbase
  generalize (fs.removeTree p).walk [] (fs.base.join p).parts = result at hshort hwalk
  cases result with
  | ok found =>
    have hfound := locate_ok hwalk
    rw [place_congr hbase p] at hfound
    simp only [contains, asks, entry?, hwalk, Except.map, hfound, hnone]
  | error e =>
    simp only [contains, asks, entry?, hwalk, Except.map]
    cases e with
    | nameTooLong => exact absurd rfl hshort
    | _ => rfl

/-- A walk that never goes up only sees what stands above its end. -/
theorem walk_congr {seen parts found : List String} (hup : ".." ∉ parts)
    (hwalk : fs.walk seen parts = .ok found)
    (hsame : ∀ q, q <+: found.reverse → fs'.get? q = fs.get? q) :
    fs'.walk seen parts = .ok found := by
  have hfound := walk_ok hwalk
  rw [Path.collapse_of_notMem hup] at hfound
  induction parts generalizing seen with
  | nil => exact hwalk
  | cons part rest ih =>
    rw [List.mem_cons, not_or] at hup
    obtain ⟨hpart, hrest⟩ := hup
    have hseen : seen.reverse <+: found.reverse := ⟨part :: rest, hfound.symm⟩
    have hfound' : found.reverse = (part :: seen).reverse ++ rest := by
      rw [hfound, List.reverse_cons, List.append_assoc]
      rfl
    have hnext : (part :: seen).reverse <+: found.reverse := ⟨rest, hfound'.symm⟩
    unfold walk at hwalk ⊢
    rw [hsame _ hseen, hsame _ hnext]
    split at hwalk
    · cases hwalk
    · cases hwalk
    rw [if_neg (Ne.symm hpart)] at hwalk ⊢
    split at hwalk
    · cases hwalk
    · next hname =>
      rw [if_neg hname]
      split at hwalk
      · next hthere =>
        rw [if_pos hthere]
        exact ih hrest hwalk hfound'
      · cases hwalk

/-- What does not stand in a tree that is removed is still read, unless the path to it passes
through that tree. -/
theorem read_removeTree {path : Path} {octets : List UInt8} (h : fs.entry? p = .ok .directory)
    (hread : fs.read path = .ok octets) (hout : ¬ fs.place p <+: fs.place path)
    (hup : ".." ∉ (fs.base.join path).parts) : (fs.removeTree p).read path = .ok octets := by
  have hbase : (fs.removeTree p).base = fs.base := by rw [removeTree_eq h]
  unfold read at hread ⊢
  cases hentry : fs.entry? path with
  | error e =>
    rw [hentry] at hread
    cases hread
  | ok e =>
    obtain ⟨hlocate, hget⟩ := entry?_ok hentry
    have hsame (q : List String) (hq : q <+: fs.place path) :
        (fs.removeTree p).get? q = fs.get? q :=
      get?_removeTree_of_not_prefix h fun hunder => hout (hunder.trans hq)
    have hwalk := walk_of_locate hlocate
    have hwalk' : (fs.removeTree p).walk [] (fs.base.join path).parts =
        .ok (fs.place path).reverse := by
      refine walk_congr hup hwalk fun q hq => hsame q ?_
      rwa [List.reverse_reverse] at hq
    have hlocate' : (fs.removeTree p).locate path = .ok (fs.place path) := by
      rw [locate_eq_walk hlocate hbase, hwalk']
      exact congrArg Except.ok (List.reverse_reverse _)
    rw [← place_congr hbase] at hlocate'
    have hget' : (fs.removeTree p).get? ((fs.removeTree p).place path) = some e := by
      rw [place_congr hbase, hsame _ List.prefix_rfl, hget]
    rwa [entry?_of_locate hlocate' hget', ← hentry]

end Files

end Latency
