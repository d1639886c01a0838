import PlayerInterface.Mp4Demux.Document

/-!
# The sample table the demuxer builds

One pass over the track fragments threads the default sample size read last,
whatever track it was given for. The table it builds is the table of the
document exactly when that default is the one of the track wherever a run needs
the default of its track.
-/

namespace PlayerInterface.Mp4Demux

open PlayerInterface.Core Program
open PlayerInterface.IsoBmff (fourcc boxBytes TrunSample)

/-! ## The table of a run -/

theorem runEntries_cons (base : Int) (len : Nat) (lens : List Nat) :
    runEntries base (len :: lens) = ⟨base, len⟩ :: runEntries (base + len) lens := by
  have hfirst : base + ((([] : List Nat).sum : Nat) : Int) = base := Int.add_zero base
  have hlater : ∀ i, base + ((len + (lens.take i).sum : Nat) : Int) =
      base + len + ((lens.take i).sum : Nat) := fun i => by omega
  simp only [runEntries, List.mapIdx_cons, List.take_zero, List.take_succ_cons, List.sum_cons,
    hfirst, hlater]

@[simp] theorem runEntries_length (base : Int) (lens : List Nat) :
    (runEntries base lens).length = lens.length := by
  simp [runEntries]

/-- The pointers the loop carries along are the sums of the lengths before them. -/
theorem runSamples_entries (flags : Word 3) (r : SampleDefaults) (v : RunVars)
    (samples : List TrunSample) :
    (runSamples flags r v samples).map Mp4Sample.entry =
      runEntries v.data_ptr (samples.map (sampleLen flags r)) := by
  induction samples generalizing v with
  | nil => rfl
  | cons s samples ih =>
      rw [runSamples, List.map_cons, ih, List.map_cons, runEntries_cons]
      rfl

/-- The table of a run when a size stands for those it does not carry. -/
def Trun.entries (size : Nat) (moof : Int) (b : Trun) : List TableEntry :=
  runEntries (b.base moof) (b.val.samples.map fun s => fieldOr b.val.flags 0x0200 s.sample_size size)

theorem Trun.length?_some (size : Nat) (b : Trun) (s : TrunSample) :
    b.length? (some size) s = some (fieldOr b.val.flags 0x0200 s.sample_size size) := by
  by_cases hsizes : b.carriesSizes
  · exact (if_pos hsizes).trans (congrArg some (if_pos hsizes).symm)
  · exact (if_neg hsizes).trans (congrArg some (if_neg hsizes).symm)

theorem Trun.table_some (size : Nat) (moof : Int) (b : Trun) :
    b.table (some size) moof = some (b.entries size moof) := by
  have hlengths : b.length? (some size) =
      fun s => some (fieldOr b.val.flags 0x0200 s.sample_size size) :=
    funext (b.length?_some size)
  have hmap : b.val.samples.mapM (b.length? (some size)) =
      some (b.val.samples.map fun s => fieldOr b.val.flags 0x0200 s.sample_size size) := by
    rw [hlengths]
    exact List.mapM_pure
  rw [table, hmap]
  rfl

/-- A run needs the default when it has samples and carries no sizes. -/
def Trun.needsDefault (b : Trun) : Prop := ¬ b.carriesSizes ∧ b.val.samples ≠ []

theorem Trun.table_of_not_needs {b : Trun} (h : ¬ b.needsDefault) (default default' : Option Nat)
    (moof : Int) : b.table default moof = b.table default' moof := by
  by_cases hsizes : b.carriesSizes
  · have hlengths : b.length? default = b.length? default' := by
      funext s
      rw [length?, length?, if_pos hsizes, if_pos hsizes]
    rw [table, table, hlengths]
  · have hnil : b.val.samples = [] := Decidable.not_not.mp fun hne => h ⟨hsizes, hne⟩
    rw [table, table, hnil]
    rfl

/-- A run that needs the default shows it as the length of its first sample. -/
theorem Trun.table_inj {b : Trun} (h : b.needsDefault) {default : Option Nat} {size : Nat}
    {moof : Int} (ht : b.table default moof = some (b.entries size moof)) :
    default = some size := by
  obtain ⟨hsizes, hne⟩ := h
  obtain ⟨s, samples, hs⟩ := List.exists_cons_of_ne_nil hne
  rw [carriesSizes, not_not] at hsizes
  cases default with
  | none =>
      have hlength : b.length? none s = none := if_neg (not_not_intro hsizes)
      rw [table, hs, List.mapM_cons, hlength] at ht
      cases ht
  | some other =>
      rw [table_some, Option.some.injEq, entries, entries, hs, List.map_cons, List.map_cons,
        runEntries_cons, runEntries_cons, List.cons.injEq, TableEntry.mk.injEq] at ht
      have hhead := ht.1.2
      rw [fieldOr, fieldOr, if_neg (not_not_intro hsizes), if_neg (not_not_intro hsizes)] at hhead
      rw [hhead]

/-! ## Tables behind each other -/

section
variable {α : Type} {f g : α → Option (List TableEntry)}

/-- Tables behind each other agree piece by piece when the first pieces are as long. -/
theorem append_tables_iff {x y : Option (List TableEntry)} {a b : List TableEntry}
    (hlen : ∀ table, x = some table → table.length = a.length) :
    (do let table ← x; let tables ← y; pure (table ++ tables)) = some (a ++ b) ↔
      x = some a ∧ y = some b := by
  constructor
  · intro h
    cases hx : x with
    | none =>
        rw [hx] at h
        cases h
    | some table =>
        cases hy : y with
        | none =>
            rw [hx, hy] at h
            cases h
        | some tables =>
            rw [hx, hy] at h
            have happend : table ++ tables = a ++ b := Option.some.inj h
            obtain ⟨rfl, rfl⟩ := List.append_inj happend (hlen table hx)
            exact ⟨rfl, rfl⟩
  · rintro ⟨rfl, rfl⟩
    rfl

end

theorem mapM_length {f : TrunSample → Option Nat} {samples : List TrunSample} {lens : List Nat}
    (h : samples.mapM f = some lens) : lens.length = samples.length := by
  induction samples generalizing lens with
  | nil =>
      rw [List.mapM_nil] at h
      cases h
      rfl
  | cons s samples ih =>
      rw [List.mapM_cons] at h
      cases hs : f s with
      | none =>
          rw [hs] at h
          cases h
      | some len =>
          cases hrest : samples.mapM f with
          | none =>
              rw [hs, hrest] at h
              cases h
          | some rest =>
              rw [hs, hrest] at h
              cases h
              rw [List.length_cons, List.length_cons, ih hrest]

theorem Trun.table_length {default : Option Nat} {moof : Int} {b : Trun}
    {table : List TableEntry} (h : b.table default moof = some table) (size : Nat) :
    table.length = (b.entries size moof).length := by
  obtain ⟨lens, hlens, rfl⟩ := Option.map_eq_some_iff.mp h
  rw [runEntries_length, mapM_length hlens, entries, runEntries_length, List.length_map]

/-! ## The table of a track fragment -/

def Traf.entries (size : Nat) (moof : Int) (t : Traf) : List TableEntry :=
  t.truns.flatMap fun b => b.entries size moof

def Traf.needsDefault (t : Traf) : Prop := ∃ b ∈ t.truns, Trun.needsDefault b

theorem truns_table_iff {default : Option Nat} {size : Nat} {moof : Int} (truns : List Trun) :
    concatTables (Trun.table default moof) truns =
        some (truns.flatMap fun b => b.entries size moof) ↔
      ((∃ b ∈ truns, Trun.needsDefault b) → default = some size) := by
  induction truns with
  | nil => simp [concatTables]
  | cons b truns ih =>
      rw [concatTables, List.flatMap_cons,
        append_tables_iff fun table h => Trun.table_length h size, ih]
      constructor
      · rintro ⟨hb, hrest⟩ ⟨b', hmem, hneeds⟩
        rcases List.mem_cons.mp hmem with rfl | hmem
        · exact Trun.table_inj hneeds hb
        · exact hrest ⟨b', hmem, hneeds⟩
      · intro h
        refine ⟨?_, fun ⟨b', hmem, hneeds⟩ => h ⟨b', List.mem_cons_of_mem b hmem, hneeds⟩⟩
        by_cases hneeds : Trun.needsDefault b
        · rw [h ⟨b, List.mem_cons_self, hneeds⟩, Trun.table_some]
        · rw [Trun.table_of_not_needs hneeds default (some size), Trun.table_some]

theorem truns_table_length {default : Option Nat} {moof : Int} {truns : List Trun}
    {table : List TableEntry} (h : concatTables (Trun.table default moof) truns = some table)
    (size : Nat) : table.length = (truns.flatMap fun b => b.entries size moof).length := by
  induction truns generalizing table with
  | nil =>
      cases h
      rfl
  | cons b truns ih =>
      rw [concatTables] at h
      cases hb : b.table default moof with
      | none =>
          rw [hb] at h
          cases h
      | some first =>
          cases hrest : concatTables (Trun.table default moof) truns with
          | none =>
              rw [hb, hrest] at h
              cases h
          | some rest =>
              rw [hb, hrest] at h
              cases h
              rw [List.flatMap_cons, List.length_append, List.length_append,
                Trun.table_length hb size, ih hrest]

/-- The default in force in a track fragment, when `size` was read last before it. -/
def Traf.size (size : Nat) (t : Traf) : Nat :=
  fieldOr t.tfhd.val.flags 0x00010 t.tfhd.val.default_sample_size size

theorem Traf.size_eq (size : Nat) (t : Traf) : t.size size = t.defaultSize?.getD size := by
  unfold Traf.size defaultSize? fieldOr
  by_cases hflag : t.tfhd.val.flags.toNat &&& 0x00010 ≠ 0
  · rw [if_pos hflag, if_pos hflag, Option.getD_some]
  · rw [if_neg hflag, if_neg hflag, Option.getD_none]

theorem Traf.table_length {default : Option Nat} {moof : Int} {t : Traf}
    {table : List TableEntry} (h : t.table default moof = some table) (size : Nat) :
    table.length = (t.entries size moof).length := truns_table_length h size

/-- The table of a track fragment, with the default of its track `trackSize`. -/
theorem Traf.table_iff {t : Traf} {trackSize : Option Nat} {size : Nat} {moof : Int} :
    t.table (t.defaultSize? <|> trackSize) moof = some (t.entries (t.size size) moof) ↔
      (t.defaultSize? = none → t.needsDefault → trackSize = some size) := by
  rw [table, entries, truns_table_iff, size_eq]
  cases t.defaultSize? with
  | none => simp [needsDefault]
  | some own => simp

/-! ## The table of a document -/

/-- The table of one pass over track fragments, with the default size read last. -/
def readTable : Nat → List (Int × Traf) → List TableEntry
  | _, [] => []
  | size, p :: trafs => p.2.entries (p.2.size size) p.1 ++ readTable (p.2.size size) trafs

/-- The default size read last after track fragments. -/
def lastSize (size : Nat) (trafs : List Traf) : Nat := trafs.foldl Traf.size size

theorem readTable_append (size : Nat) (xs ys : List (Int × Traf)) :
    readTable size (xs ++ ys) =
      readTable size xs ++ readTable (lastSize size (xs.map Prod.snd)) ys := by
  induction xs generalizing size with
  | nil => rfl
  | cons p xs ih =>
      rw [List.cons_append, readTable, readTable, ih, List.append_assoc]
      rfl

/-- Wherever a run needs the default of its track, that is the default read last. -/
def AgreeFrom (trackSize? : Nat → Option Nat) : Nat → List Traf → Prop
  | _, [] => True
  | size, t :: trafs =>
      (t.defaultSize? = none → t.needsDefault → trackSize? t.trackId = some size) ∧
        AgreeFrom trackSize? (t.size size) trafs

theorem readTable_iff {trackSize? : Nat → Option Nat} (size : Nat) (trafs : List (Int × Traf)) :
    concatTables (fun p : Int × Traf =>
        p.2.table (p.2.defaultSize? <|> trackSize? p.2.trackId) p.1) trafs =
        some (readTable size trafs) ↔
      AgreeFrom trackSize? size (trafs.map Prod.snd) := by
  induction trafs generalizing size with
  | nil => simp [concatTables, readTable, AgreeFrom]
  | cons p trafs ih =>
      rw [concatTables, readTable, append_tables_iff fun table h => Traf.table_length h _,
        Traf.table_iff, ih, List.map_cons, AgreeFrom]

/-! ## The registers of the walk -/

/-- The registers hold this table, base address and default size. -/
structure Shows (r : Registers) (table : List TableEntry) (moof : Int) (size : Nat) : Prop where
  table_eq : r.samples.map Mp4Sample.entry = table
  moof_eq : r.moof_ptr = moof
  size_eq : r.default_sample_size = size

namespace Shows

variable {r : Registers} {table : List TableEntry} {moof : Int} {size : Nat}

theorem trun (h : Shows r table moof size) (b : Trun) :
    Shows (trunRegisters b.val r) (table ++ b.entries size moof) moof size := by
  obtain ⟨rfl, rfl, rfl⟩ := h
  refine ⟨?_, rfl, rfl⟩
  rw [trunRegisters, List.map_append, runSamples_entries]
  rfl

theorem truns (truns : List Trun) (a : Nat) {table : List TableEntry}
    (h : Shows r table moof size) :
    Shows ((trunBoxes truns).registers a r)
      (table ++ truns.flatMap fun b => b.entries size moof) moof size := by
  induction truns generalizing a r table with
  | nil => simpa [trunBoxes, Boxes.registers] using h
  | cons b truns ih =>
      rw [trunBoxes, Boxes.registers, List.flatMap_cons, ← List.append_assoc]
      exact ih _ (h.trun b)

/-- A track fragment replaces the default size when its header gives one. -/
theorem traf (h : Shows r table moof size) (t : Traf) (a : Nat) :
    Shows (t.children.registers a r) (table ++ t.entries (t.size size) moof) moof
      (t.size size) := by
  obtain ⟨htable, hmoof, hsize⟩ := h
  rw [Traf.children, Boxes.registers, Boxes.registers]
  refine Shows.truns t.truns _ ⟨htable, hmoof, ?_⟩
  exact congrArg (fieldOr t.tfhd.val.flags 0x00010 t.tfhd.val.default_sample_size) hsize

theorem trafs (trafs : List Traf) (a : Nat) (h : Shows r table moof size) :
    Shows ((trafBoxes trafs).registers a r)
      (table ++ readTable size (trafs.map (Prod.mk moof))) moof (lastSize size trafs) := by
  induction trafs generalizing a r table size with
  | nil => simpa [trafBoxes, Boxes.registers, readTable, lastSize] using h
  | cons t trafs ih =>
      rw [trafBoxes, Boxes.registers, List.map_cons, readTable, ← List.append_assoc]
      exact ih _ (h.traf t _)

theorem moofBox (b : Moof) (a : Nat) (h : Shows r table moof size) :
    Shows (b.children.registers a r)
      (table ++ readTable size (b.trafs.map (Prod.mk moof))) moof (lastSize size b.trafs) := by
  unfold Moof.children
  cases b.mfhd with
  | some payload => exact Shows.trafs b.trafs _ h
  | none => exact Shows.trafs b.trafs a h

/-- Each fragment has its own base address; the default size is carried over. -/
theorem fragments (fragments : List Fragment) (a : Nat) (h : Shows r table moof size) :
    ∃ moof' size', Shows ((fragmentBoxes fragments).registers a r)
      (table ++ readTable size (placeTrafs a fragments)) moof' size' := by
  induction fragments generalizing a r table moof size with
  | nil => exact ⟨moof, size, by simpa [fragmentBoxes, Boxes.registers, placeTrafs, readTable]⟩
  | cons f fragments ih =>
      have hmoof : Shows (Frame.moof.registers a r) table a size := ⟨h.table_eq, rfl, h.size_eq⟩
      have hinner := hmoof.moofBox f.moof (a + 8 + Frame.moof.head.length)
      have hsnd : (f.moof.trafs.map (Prod.mk (a : Int))).map Prod.snd = f.moof.trafs := by
        rw [List.map_map]
        exact List.map_id f.moof.trafs
      obtain ⟨moof', size', hrest⟩ := ih (a + f.length) hinner
      refine ⟨moof', size', ?_⟩
      rw [placeTrafs, readTable_append, hsnd, ← List.append_assoc, fragmentBoxes,
        Boxes.registers, Boxes.registers]
      rw [Fragment.length, ← Nat.add_assoc] at hrest ⊢
      exact hrest

/-- A movie box leaves the default size of its last track defaults. -/
theorem init {F : Boxes} (hinit : F.IsInit) (a : Nat) (h : Shows r table moof size) :
    Shows (F.registers a r) table moof
      (F.trexes.foldl (fun _ b => b.default_sample_size.toNat) size) := by
  induction F generalizing a r size with
  | nil => exact h
  | leaf box rest ih =>
      obtain ⟨hbox, hrest⟩ := hinit
      cases box with
      | passive type payload => exact ih hrest _ h
      | timed box fields =>
          cases box with
          | mvhd => exact ih hrest _ ⟨h.table_eq, h.moof_eq, h.size_eq⟩
          | mdhd => exact ih hrest _ ⟨h.table_eq, h.moof_eq, h.size_eq⟩
          | tkhd => exact ih hrest _ ⟨h.table_eq, h.moof_eq, h.size_eq⟩
      | esds header descriptors => exact ih hrest _ h
      | trex fields => exact ih hrest _ ⟨h.table_eq, h.moof_eq, rfl⟩
      | tfhd fields => exact hbox.elim
      | tfdt fields => exact hbox.elim
      | trun fields => exact hbox.elim
  | node frame children rest ihc ihr =>
      obtain ⟨hframe, hchildren, hrest⟩ := hinit
      have hsame : frame.registers a r = r := by
        cases frame with
        | moof => exact (hframe rfl).elim
        | container type => rfl
        | stsd version flags => rfl
        | visual type fields => rfl
        | audio type fields => rfl
      rw [Boxes.registers, Boxes.trexes, List.foldl_append, hsame]
      exact ihr hrest _ (ihc hchildren _ h)

end Shows

/-! ## Documents -/

namespace Document

/-- The default size in force behind the movie box. -/
def moovSize (doc : Document) (size : Nat) : Nat :=
  doc.trexes.foldl (fun _ b => b.default_sample_size.toNat) size

theorem registers_table (doc : Document) (start : Nat) {r : Registers} (hr : r.samples = []) :
    (doc.boxes.registers start r).samples.map Mp4Sample.entry =
      readTable (doc.moovSize r.default_sample_size) (doc.placedTrafs start) := by
  have hstart : Shows r [] r.moof_ptr r.default_sample_size := ⟨by rw [hr]; rfl, rfl, rfl⟩
  unfold moovSize placedTrafs trexes moovLength Presentation.boxes
  cases doc.moov with
  | none =>
      obtain ⟨moof, size, h⟩ := hstart.fragments doc.fragments start
      exact h.table_eq
  | some moov =>
      have hmoov := hstart.init moov.init (start + 8 + (Frame.container MOOV).head.length)
      obtain ⟨moof, size, h⟩ := hmoov.fragments doc.fragments
        (start + (boxBytes MOOV.val moov.boxes.bytes).length)
      exact h.table_eq

/-- The constructor returns, with the table of one pass over the track fragments. -/
theorem construct_table (doc : Document) (heap : Mem) (start timescale : Nat) (memory : Demuxer)
    {fuel : Nat} (hfuel : doc.boxes.fuel ≤ fuel) :
    ∃ d, construct fuel (heap.write start doc.bytes) start doc.bytes.length timescale memory =
        .ok d ∧
      d.samples.map Mp4Sample.entry =
        readTable (doc.moovSize memory.default_sample_size) (doc.placedTrafs start) := by
  let d₀ := { memory with
    info := memory.info.construct, samples := [], ptr := start, moof_ptr := 0
    timescale := timescale }
  obtain ⟨d, hd, hregisters⟩ := demuxHelper_boxes doc.fits (c := d₀.cursor) hfuel
    (heap.holds_write start doc.bytes) d₀ rfl
  have hsamples : d.samples = (doc.boxes.registers start d₀.cursor.toRegisters).samples :=
    congrArg Registers.samples hregisters
  refine ⟨d, ?_, ?_⟩
  · show Except.map Prod.snd (demuxHelper fuel (start + doc.bytes.length) _ d₀) = _
    rw [show demuxHelper fuel (start + doc.bytes.length) (heap.write start doc.bytes) d₀ =
      .ok ((), d) from hd]
    rfl
  · rw [hsamples]
    exact doc.registers_table start rfl

def trafs (doc : Document) : List Traf := doc.fragments.flatMap (·.moof.trafs)

theorem placeTrafs_snd (a : Nat) (fragments : List Fragment) :
    (placeTrafs a fragments).map Prod.snd = fragments.flatMap (·.moof.trafs) := by
  induction fragments generalizing a with
  | nil => rfl
  | cons f fragments ih =>
      rw [placeTrafs, List.map_append, ih, List.map_map, List.flatMap_cons]
      exact congrArg (· ++ _) (List.map_id f.moof.trafs)

/-- The default size that was read last before a track fragment: that of the last
header that gave one, else that of the last track defaults. -/
def latestSize? (doc : Document) (before : List Traf) : Option Nat :=
  before.foldl (fun size t => t.defaultSize? <|> size)
    (doc.trexes.foldl (fun _ b => some b.default_sample_size.toNat) none)

/-- A track fragment that has to use the default of its track finds it in the
default size that was read last. -/
def DefaultsAgree (doc : Document) : Prop :=
  ∀ before t after, doc.trafs = before ++ t :: after → t.defaultSize? = none →
    t.needsDefault → ∃ size, doc.trackSize? t.trackId = some size ∧
      doc.latestSize? before = some size

theorem trexes_of_trackSize {doc : Document} {trackId size : Nat}
    (h : doc.trackSize? trackId = some size) : doc.trexes ≠ [] := by
  obtain ⟨b, hb, -⟩ := Option.map_eq_some_iff.mp h
  exact List.ne_nil_of_mem (List.mem_of_find?_eq_some hb)

theorem foldl_some_size {trexes : List TrexFields} (h : trexes ≠ []) (start : Option Nat)
    (size : Nat) :
    trexes.foldl (fun _ b => some b.default_sample_size.toNat) start =
      some (trexes.foldl (fun _ b => b.default_sample_size.toNat) size) := by
  induction trexes generalizing start size with
  | nil => exact (h rfl).elim
  | cons b trexes ih =>
      cases trexes with
      | nil => rfl
      | cons b' trexes =>
          exact ih (List.cons_ne_nil b' trexes) (some b.default_sample_size.toNat)
            b.default_sample_size.toNat

theorem foldl_size (trafs : List Traf) (size : Nat) :
    trafs.foldl (fun size t => t.defaultSize? <|> size) (some size) =
      some (lastSize size trafs) := by
  induction trafs generalizing size with
  | nil => rfl
  | cons t trafs ih =>
      have hstep : (t.defaultSize? <|> some size) = some (t.size size) := by
        rw [Traf.size_eq]
        cases t.defaultSize? <;> rfl
      rw [List.foldl_cons, hstep, ih]
      rfl

/-- With track defaults in the movie box, the size read last is the register of the walk. -/
theorem latestSize_eq {doc : Document} (h : doc.trexes ≠ []) (size : Nat) (before : List Traf) :
    doc.latestSize? before = some (lastSize (doc.moovSize size) before) := by
  rw [latestSize?, foldl_some_size h none size, foldl_size]
  rfl

end Document

theorem agreeFrom_iff {trackSize? : Nat → Option Nat} (size : Nat) (trafs : List Traf) :
    AgreeFrom trackSize? size trafs ↔ ∀ before t after, trafs = before ++ t :: after →
      t.defaultSize? = none → t.needsDefault →
        trackSize? t.trackId = some (lastSize size before) := by
  induction trafs generalizing size with
  | nil =>
      refine ⟨fun _ before t after h => ?_, fun _ => trivial⟩
      cases before <;> cases h
  | cons t trafs ih =>
      rw [AgreeFrom, ih]
      constructor
      · rintro ⟨hfirst, hlater⟩ before t' after h
        cases before with
        | nil =>
            cases h
            exact hfirst
        | cons u before =>
            obtain ⟨rfl, hrest⟩ := List.cons.inj h
            exact hlater before t' after hrest
      · intro h
        refine ⟨h [] t trafs rfl, fun before t' after hrest => ?_⟩
        exact h (t :: before) t' after (congrArg (List.cons t) hrest)

theorem Document.agreeFrom_iff_defaultsAgree (doc : Document) (size : Nat) :
    AgreeFrom doc.trackSize? (doc.moovSize size) doc.trafs ↔ doc.DefaultsAgree := by
  rw [agreeFrom_iff]
  constructor
  · intro h before t after hsplit hnone hneeds
    have htrack := h before t after hsplit hnone hneeds
    exact ⟨_, htrack, latestSize_eq (trexes_of_trackSize htrack) size before⟩
  · intro h before t after hsplit hnone hneeds
    obtain ⟨track, htrack, hlatest⟩ := h before t after hsplit hnone hneeds
    rw [latestSize_eq (trexes_of_trackSize htrack) size, Option.some.injEq] at hlatest
    rw [htrack, hlatest]

/-- The demuxer returns on every document at every address, and its samples are the
table of the document exactly when the default sizes agree. -/
theorem sampleTable_iff_defaultsAgree (doc : Document) (heap : Mem) (start timescale : Nat)
    (memory : Demuxer) :
    ∃ enough, ∀ fuel, enough ≤ fuel → ∃ d,
      construct fuel (heap.write start doc.bytes) start doc.bytes.length timescale memory =
        .ok d ∧
      (some (d.samples.map Mp4Sample.entry) = doc.table start ↔ doc.DefaultsAgree) := by
  refine ⟨doc.boxes.fuel, fun fuel hfuel => ?_⟩
  obtain ⟨d, hd, htable⟩ := doc.construct_table heap start timescale memory hfuel
  have hsnd : (doc.placedTrafs start).map Prod.snd = doc.trafs :=
    Document.placeTrafs_snd _ doc.fragments
  refine ⟨d, hd, ?_⟩
  rw [htable, eq_comm, Document.table, readTable_iff, hsnd, doc.agreeFrom_iff_defaultsAgree]

/-! ## Two tracks with different default sizes -/

namespace TwoTracks

def trex (track size : Word 4) : TrexFields where
  version := .zero
  flags := .zero
  track_ID := track
  default_sample_description_index := ⟨1, by decide⟩
  default_sample_duration := .zero
  default_sample_size := size
  default_sample_flags := .zero

/-- Track 1 has samples of 10 bytes, track 2 samples of 20. -/
def moov : Moov where
  boxes := .node (.container ⟨fourcc 'm' 'v' 'e' 'x', by decide⟩)
    (.leaf (.trex (trex ⟨1, by decide⟩ ⟨10, by decide⟩))
      (.leaf (.trex (trex ⟨2, by decide⟩ ⟨20, by decide⟩)) .nil)) .nil
  init := ⟨nofun, ⟨trivial, trivial, trivial⟩, trivial⟩

/-- One sample of track 1 that takes its size over from the track. -/
def traf : Traf where
  tfhd := ⟨{
    version := .zero, flags := .zero, track_ID := ⟨1, by decide⟩
    base_data_offset := .zero, sample_description_index := .zero
    default_sample_duration := .zero, default_sample_size := .zero
    default_sample_flags := .zero }, by decide⟩
  tfdt := { version1 := false, flags := .zero, baseMediaDecodeTime := .zero }
  truns := [⟨{
    version := .zero, flags := ⟨1, by decide⟩, data_offset := ⟨100, by decide⟩
    first_sample_flags := .zero
    samples := [⟨.zero, .zero, .zero, .zero⟩]
    count_lt := by decide }, by decide⟩]

def document : Document where
  moov := some moov
  fragments := [{ moof := { mfhd := none, trafs := [traf] }, mdat := [] }]
  fits := by decide

end TwoTracks

/-- A sample of the first track gets the default size of the second. -/
theorem sampleTable_twoTracks :
    ¬ ∀ (doc : Document) (heap : Mem) (start timescale : Nat) (memory : Demuxer) (fuel : Nat)
      (d : Demuxer),
      construct fuel (heap.write start doc.bytes) start doc.bytes.length timescale memory =
        .ok d → some (d.samples.map Mp4Sample.entry) = doc.table start := by
  intro h
  obtain ⟨d, hd, htable⟩ := TwoTracks.document.construct_table (fun _ => 0) 0 1 default
    (Nat.le_refl _)
  have hclaim := h TwoTracks.document (fun _ => 0) 0 1 default _ d hd
  rw [htable] at hclaim
  exact absurd hclaim (by decide)

end PlayerInterface.Mp4Demux
