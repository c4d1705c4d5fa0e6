import GridQuery.Proofs.Fields
import GridQuery.Proofs.JoinChain
import GridQuery.Proofs.JoinRows

/-!
Where fields are pointed. The columns of a source stand in the joined table behind those of the sources
before it, and each join points the fields of its source there.
-/

namespace GridQuery
set_option autoImplicit false

/-- The number of columns of the first `count` tables. -/
def columnsBefore : List Table → Nat → Nat
  | _, 0 => 0
  | [], _ + 1 => 0
  | t :: ts, count + 1 => t.width + columnsBefore ts count

theorem columnsBefore_succ {sources : List Table} {count : Nat} {source : Table}
    (h : sources[count]? = some source) :
    columnsBefore sources (count + 1) = columnsBefore sources count + source.width := by
  induction sources generalizing count with
  | nil => cases h
  | cons t sources ih =>
    cases count with
    | zero =>
      cases h
      simp [columnsBefore]
    | succ count =>
      have hrest : sources[count]? = some source := h
      simp only [columnsBefore, ih hrest, Nat.add_assoc]

section Chain

variable {σ : Type} {world : World} {runner : Runner σ} {sources : List Table}

/-- Each field of a column is one of a source's columns; if the source is among the first `count`, the
field is pointed at the place of that column among all of theirs. -/
def Fields.Pointed (sources : List Table) (count : Nat) (fs : Fields) : Prop :=
  ∀ f ∈ fs, ∀ {s c : Nat}, f.kind = .column s c → ∃ source, sources[s]? = some source ∧
    (source.Named → c < source.width) ∧
    (s < count → f.physical? = some (columnsBefore sources s + c))

theorem Fields.Made.pointed {fs : Fields} (h : Fields.Made sources fs) : fs.Pointed sources 1 := by
  intro f hf s c hkind
  obtain ⟨source, hsource, hwidth⟩ := (h.fresh f hf).column hkind
  refine ⟨source, hsource, hwidth, ?_⟩
  intro hs
  obtain rfl : s = 0 := by omega
  simp only [Field.physical?, hkind, (h.fresh f hf).derived_eq, columnsBefore, Nat.zero_add,
    Option.getD_none]

/-- Fields of other sources stay as they are. -/
theorem Fields.mem_repoint {fs : Fields} {source offset : Nat} {g : Field}
    (h : g ∈ fs.repoint source offset) : ∃ f ∈ fs, g.kind = f.kind ∧
      ∀ {s c : Nat}, f.kind = .column s c →
        g.physical? = if s = source then some (offset + c) else f.physical? := by
  obtain ⟨f, hf, rfl⟩ := List.mem_map.mp h
  refine ⟨f, hf, ?_⟩
  split
  · rename_i s c hkind
    split
    · rename_i hs
      refine ⟨rfl, ?_⟩
      intro s' c' hkind'
      cases hkind.symm.trans hkind'
      simp only [Field.physical?, hkind, if_pos hs, Option.getD_some]
    · rename_i hs
      refine ⟨rfl, ?_⟩
      intro s' c' hkind'
      cases hkind.symm.trans hkind'
      rw [if_neg hs]
  · rename_i hnone
    refine ⟨rfl, ?_⟩
    intro s c hkind
    exact absurd hkind (hnone s c)

theorem Fields.Pointed.repoint {fs : Fields} {count : Nat} (h : fs.Pointed sources count) :
    (fs.repoint count (columnsBefore sources count)).Pointed sources (count + 1) := by
  intro g hg s c hkind
  obtain ⟨f, hf, hsame, hphysical⟩ := Fields.mem_repoint hg
  obtain ⟨source, hsource, hwidth, hpointed⟩ := h f hf (hsame.symm.trans hkind)
  refine ⟨source, hsource, hwidth, ?_⟩
  intro hs
  rw [hphysical (hsame.symm.trans hkind)]
  split
  · rename_i he
    rw [he]
  · exact hpointed (by omega)

variable {first t : Table} {others : List Table} {joins : List JoinClause} {fields pointed : Fields}
  {st st' : σ}

/-- After the last join every field of a column is pointed at it. -/
theorem joinFrom_pointed (hmade : Fields.Made (chainSources first joins others) fields)
    (h : (joinFrom world runner 1 first fields joins others).Gives st (t, pointed) st') :
    ∀ f ∈ pointed, ∀ {s c : Nat}, f.kind = .column s c →
      ∃ source, (chainSources first joins others)[s]? = some source ∧
        (source.Named → c < source.width) ∧
        f.physical? = some (columnsBefore (chainSources first joins others) s + c) := by
  let sources := chainSources first joins others
  have hstart : first.width = columnsBefore sources 1 ∧ fields.Pointed sources 1 :=
    ⟨by simp [sources, chainSources, columnsBefore], hmade.pointed⟩
  obtain ⟨last, hlast, _, hpointed⟩ := joinFrom_invariant sources
    (fun count working fs => working.width = columnsBefore sources count ∧ fs.Pointed sources count)
    (by
      intro count working right next fs kind on st st' hright hworking hnext
      obtain ⟨hwidth, hfs⟩ := hworking
      obtain ⟨ms, _, rfl⟩ := joinTables_gives hnext
      rw [joinedTable_width, columnsBefore_succ hright, hwidth]
      exact ⟨rfl, hfs.repoint⟩)
    rfl hstart h
  intro f hf s c hkind
  obtain ⟨source, hsource, hcolumn, hphysical⟩ := hpointed f hf hkind
  have hs := (List.getElem?_eq_some_iff.mp hsource).1
  exact ⟨source, hsource, hcolumn, hphysical (by omega)⟩

end Chain

end GridQuery
