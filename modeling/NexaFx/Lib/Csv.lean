import Mathlib.Tactic

/-!
# Comma-separated values

The reader of RFC 4180 as a machine over the characters of a text (`read`),
and what writers make of a field (`Cell`). Outside quotes CR, LF and CRLF each
end a record; a quote inside an unquoted field, text after a closing quote and
an unclosed quote make the text unreadable.

* `stays_readFrom` — what the machine has read is never taken back.
* `read_lines_iff`, `read_joined_iff` — a text of cells that are each sound or
  garbled is read as their fields if and only if all are sound.
* `sound_plain`, `sound_quote` — the two sound ways to write a field.
* `garbled_of_cr`, `garbled_of_quote` — two that are not.
-/

namespace Csv

abbrev Field := List Char
abbrev Record := List Field

/-! ## The reader -/

/-- Where the reader is: at the first character of a record (`fresh`, or `cr`
when a CR has just ended the one before), of a later field (`start`), inside
an unquoted or a quoted field, or behind a quote in a quoted field. -/
inductive Mode where
  | fresh
  | cr
  | start
  | plain
  | quoted
  | closing
  deriving DecidableEq, Repr

structure State where
  mode : Mode
  field : Field
  record : Record
  records : List Record
  deriving DecidableEq, Repr

namespace State

def push (s : State) (mode : Mode) (c : Char) : State :=
  { s with mode := mode, field := s.field ++ [c] }

def endField (s : State) : State :=
  { s with mode := .start, field := [], record := s.record ++ [s.field] }

def endRecord (s : State) (mode : Mode) : State :=
  { mode := mode, field := [], record := [], records := s.records ++ [s.record ++ [s.field]] }

end State

/-- The three characters that end a field outside quotes. -/
def delimit (s : State) (c : Char) : Option State :=
  if c = ',' then some s.endField
  else if c = '\n' then some (s.endRecord .fresh)
  else if c = '\r' then some (s.endRecord .cr)
  else none

/-- The first character of a field. -/
def openField (s : State) (c : Char) : State :=
  if c = '"' then { s with mode := .quoted }
  else (delimit s c).getD (s.push .plain c)

def step (s : State) (c : Char) : Option State :=
  match s.mode with
  | .fresh | .start => some (openField s c)
  | .cr => if c = '\n' then some { s with mode := .fresh } else some (openField s c)
  | .plain => if c = '"' then none else some ((delimit s c).getD (s.push .plain c))
  | .quoted => if c = '"' then some { s with mode := .closing } else some (s.push .quoted c)
  | .closing => if c = '"' then some (s.push .quoted c) else delimit s c

/-- The end of the text ends the last record, unless a line end already did. -/
def finish (s : State) : Option (List Record) :=
  match s.mode with
  | .fresh | .cr => some s.records
  | .start | .plain | .closing => some (s.records ++ [s.record ++ [s.field]])
  | .quoted => none

def run : List Char → State → Option State
  | [], s => some s
  | c :: cs, s => (step s c).bind (run cs)

def initial : State := ⟨.fresh, [], [], []⟩

/-- Read a whole text from state `s` on. -/
def readFrom (s : State) (cs : List Char) : Option (List Record) := (run cs s).bind finish

def read (cs : List Char) : Option (List Record) := readFrom initial cs

@[simp] theorem run_nil (s : State) : run [] s = some s := rfl

theorem run_cons (c : Char) (cs : List Char) (s : State) :
    run (c :: cs) s = (step s c).bind (run cs) := rfl

theorem run_append (cs ds : List Char) (s : State) :
    run (cs ++ ds) s = (run cs s).bind (run ds) := by
  induction cs generalizing s with
  | nil => rfl
  | cons c cs ih =>
    rw [List.cons_append, run_cons, run_cons]
    cases step s c with
    | none => rfl
    | some t => exact ih t

/-- Reading goes on from the state a beginning of the text has led to. -/
theorem readFrom_append {cs ds : List Char} {s t : State} (h : run cs s = some t) :
    readFrom s (cs ++ ds) = readFrom t ds := by
  rw [readFrom, run_append, h]
  rfl

/-! ## What one character does -/

/-- No character of the record under way has been read. -/
def State.Between (s : State) : Prop := s.mode = .fresh ∨ s.mode = .cr

/-- The record under way is the same in `t` as in `s`. -/
def SameRecord (s t : State) : Prop :=
  t.records = s.records ∧ t.record = s.record ∧ (t.Between → s.Between)

/-- `t` is `s` one character on: inside the same field, behind a field or
behind a record. -/
def Next (s t : State) : Prop := SameRecord s t ∨ t = s.endField ∨ ∃ m, t = s.endRecord m

theorem next_of_delimit {s t : State} {c : Char} (h : delimit s c = some t) : Next s t := by
  unfold delimit at h
  split at h
  · exact Or.inr (Or.inl (Option.some.inj h).symm)
  · split at h
    · exact Or.inr (Or.inr ⟨_, (Option.some.inj h).symm⟩)
    · split at h
      · exact Or.inr (Or.inr ⟨_, (Option.some.inj h).symm⟩)
      · cases h

theorem sameRecord_push (s : State) {m : Mode} (c : Char) (hm : m ≠ .fresh ∧ m ≠ .cr) :
    SameRecord s (s.push m c) :=
  ⟨rfl, rfl, fun h => absurd h (not_or.mpr hm)⟩

theorem next_delimitOr (s : State) (c : Char) :
    Next s ((delimit s c).getD (s.push .plain c)) := by
  cases h : delimit s c with
  | none => exact Or.inl (sameRecord_push s c ⟨nofun, nofun⟩)
  | some t => exact next_of_delimit h

theorem next_openField (s : State) (c : Char) : Next s (openField s c) := by
  unfold openField
  split
  · exact Or.inl ⟨rfl, rfl, fun h => by simp [State.Between] at h⟩
  · exact next_delimitOr s c

theorem next_of_step {s t : State} {c : Char} (h : step s c = some t) : Next s t := by
  unfold step at h
  split at h
  · exact Option.some.inj h ▸ next_openField s c
  · exact Option.some.inj h ▸ next_openField s c
  · rename_i hmode
    split at h
    · exact Option.some.inj h ▸ Or.inl ⟨rfl, rfl, fun _ => Or.inr hmode⟩
    · exact Option.some.inj h ▸ next_openField s c
  · split at h
    · cases h
    · exact Option.some.inj h ▸ next_delimitOr s c
  · split at h
    · exact Option.some.inj h ▸ Or.inl ⟨rfl, rfl, fun h => by simp [State.Between] at h⟩
    · exact Option.some.inj h ▸ Or.inl (sameRecord_push s c ⟨nofun, nofun⟩)
  · split at h
    · exact Option.some.inj h ▸ Or.inl (sameRecord_push s c ⟨nofun, nofun⟩)
    · exact next_of_delimit h

/-! ## What has been read stays -/

/-- The records of `s` are the first of `rs`, and the fields of its current
record are the first of `r` or of the record behind them. -/
def Stays (s : State) (rs : List Record) (r : Record) : Prop :=
  (rs = s.records ∧ s.record <+: r) ∨ ∃ x, s.record <+: x ∧ s.records ++ [x] <+: rs

theorem Stays.refl (s : State) : Stays s s.records s.record := Or.inl ⟨rfl, List.prefix_refl _⟩

theorem Stays.trans {s t : State} {rs : List Record} {r : Record}
    (hst : Stays s t.records t.record) (ht : Stays t rs r) : Stays s rs r := by
  rcases hst with ⟨hrs, hr⟩ | ⟨x, hx, hrs⟩
  · rcases ht with ⟨hrs', hr'⟩ | ⟨y, hy, hrs'⟩
    · exact Or.inl ⟨hrs'.trans hrs, hr.trans hr'⟩
    · exact Or.inr ⟨y, hr.trans hy, hrs ▸ hrs'⟩
  · rcases ht with ⟨hrs', -⟩ | ⟨y, -, hrs'⟩
    · exact Or.inr ⟨x, hx, hrs'.symm ▸ hrs⟩
    · exact Or.inr ⟨x, hx, hrs.trans ((List.prefix_append _ _).trans hrs')⟩

theorem Next.stays {s t : State} (h : Next s t) : Stays s t.records t.record := by
  rcases h with ⟨hrs, hr, -⟩ | rfl | ⟨m, rfl⟩
  · rw [hrs, hr]
    exact Stays.refl s
  · exact Or.inl ⟨rfl, List.prefix_append _ _⟩
  · exact Or.inr ⟨s.record ++ [s.field], List.prefix_append _ _, List.prefix_refl _⟩

/-- Between two records no field is held. -/
theorem Next.between {s t : State} (h : Next s t) (hs : s.Between → s.record = []) :
    t.Between → t.record = [] := by
  rcases h with ⟨-, hr, hb⟩ | rfl | ⟨m, rfl⟩
  · exact fun ht => hr.trans (hs (hb ht))
  · intro ht
    rcases ht with h | h <;> cases h
  · exact fun _ => rfl

theorem run_invariant {I : State → Prop} (hstep : ∀ s t, Next s t → I s → I t) {cs : List Char}
    {s t : State} (h : run cs s = some t) (hs : I s) : I t := by
  induction cs generalizing s with
  | nil => exact Option.some.inj h ▸ hs
  | cons c cs ih =>
    rw [run_cons] at h
    obtain ⟨u, hu, ht⟩ := Option.bind_eq_some_iff.mp h
    exact ih ht (hstep s u (next_of_step hu) hs)

/-- What the end of the text makes of a state keeps what it held. -/
theorem stays_finish {t : State} {rs : List Record} (h : finish t = some rs)
    (hb : t.Between → t.record = []) : Stays t rs [] := by
  unfold finish at h
  split at h
  · rename_i hmode
    exact Or.inl ⟨(Option.some.inj h).symm, by rw [hb (Or.inl hmode)]⟩
  · rename_i hmode
    exact Or.inl ⟨(Option.some.inj h).symm, by rw [hb (Or.inr hmode)]⟩
  iterate 3
    exact Or.inr ⟨t.record ++ [t.field], List.prefix_append _ _,
      Option.some.inj h ▸ List.prefix_refl _⟩
  cases h

/-- What the machine holds in `s` is the beginning of what a reading from `s`
returns. -/
theorem stays_readFrom {cs : List Char} {s : State} {rs : List Record}
    (h : readFrom s cs = some rs) (hs : s.Between → s.record = []) : Stays s rs [] := by
  obtain ⟨t, ht, hfin⟩ := Option.bind_eq_some_iff.mp h
  have hst : Stays s t.records t.record :=
    run_invariant (I := fun u => Stays s u.records u.record)
      (fun _ _ hn hu => hu.trans hn.stays) ht (Stays.refl s)
  exact hst.trans (stays_finish hfin (run_invariant (fun _ _ hn => hn.between) ht hs))

/-- Two readings of the record under way have the same first fields. -/
theorem prefix_unique {rs all : List Record} {x y : Record} (hx : rs ++ [x] <+: all)
    (hy : rs ++ [y] <+: all) : x = y := by
  have h := List.prefix_of_prefix_length_le hx hy (by simp)
  rw [List.prefix_append_right_inj, List.cons_prefix_cons] at h
  exact h.1

/-! ## Cells -/

/-- What a writer puts down for one field of a record. -/
structure Cell where
  text : List Char
  field : Field
  deriving DecidableEq, Repr

/-- The reader may meet the first character of a field here. -/
def State.Ready (s : State) : Prop := (s.mode = .fresh ∨ s.mode = .start) ∧ s.field = []

/-- A delimiter ends the field under way here. -/
def State.Open (s : State) : Prop := s.mode ≠ .cr ∧ s.mode ≠ .quoted

/-- The text of the cell is read as its field, wherever a field may start. -/
def Cell.Sound (c : Cell) : Prop :=
  ∀ s : State, s.Ready → ∃ t : State, run c.text s = some t ∧ t.Open ∧
    t.field = c.field ∧ t.record = s.record ∧ t.records = s.records ∧
    (t.mode = .fresh → s.mode = .fresh)

/-- No text with the text of the cell in it is read as one with its field in
that place. -/
def Cell.Garbled (c : Cell) : Prop :=
  ∀ (s : State) (rest : List Char) (rs : List Record) (x : Record), s.Ready →
    rest.head? ≠ some '"' → readFrom s (c.text ++ rest) = some rs →
    s.record ++ [c.field] <+: x → ¬ s.records ++ [x] <+: rs

/-- The cells of a record, with commas between them. -/
def line (cells : List Cell) : List Char := [','].intercalate (cells.map Cell.text)

def fields (cells : List Cell) : Record := cells.map Cell.field

/-- The state behind the records `rs`. -/
def done (rs : List Record) : State := ⟨.fresh, [], [], rs⟩

theorem ready_done (rs : List Record) : (done rs).Ready := ⟨Or.inl rfl, rfl⟩

theorem ready_endField (s : State) : s.endField.Ready := ⟨Or.inr rfl, rfl⟩

theorem line_cons {c d : Cell} {cells : List Cell} :
    line (c :: d :: cells) = c.text ++ ',' :: line (d :: cells) := by
  simp [line, List.intercalate]

theorem line_singleton (c : Cell) : line [c] = c.text := by
  simp [line, List.intercalate]

/-- A delimiter is one wherever a field is open. -/
theorem step_delimit {s t : State} {c : Char} (h : s.Open) (hc : c ≠ '"')
    (hd : delimit s c = some t) : step s c = some t := by
  obtain ⟨hcr, hquoted⟩ := h
  unfold step
  split <;> simp_all [openField]

theorem step_comma {s : State} (h : s.Open) : step s ',' = some s.endField :=
  step_delimit h (by decide) rfl

theorem step_lf {s : State} (h : s.Open) : step s '\n' = some (s.endRecord .fresh) :=
  step_delimit h (by decide) rfl

theorem step_cr {s : State} (h : s.Open) : step s '\r' = some (s.endRecord .cr) :=
  step_delimit h (by decide) rfl

/-- A sound cell and the comma behind it. -/
theorem Cell.Sound.run_comma {c : Cell} (hc : c.Sound) {s : State} (hs : s.Ready) :
    run (c.text ++ [',']) s = some { s with mode := .start, record := s.record ++ [c.field] } := by
  obtain ⟨t, ht, hopen, hf, hr, hrs, -⟩ := hc s hs
  rw [run_append, ht, Option.bind_some, run_cons, step_comma hopen, Option.bind_some, run_nil,
    State.endField, hf, hr, hrs, hs.2]

/-- The cells of a record leave the machine inside the last of them. -/
theorem run_line {cells : List Cell} (hcells : ∀ c ∈ cells, c.Sound) (hne : cells ≠ []) {s : State}
    (hs : s.Ready) : ∃ t : State, run (line cells) s = some t ∧ t.Open ∧
      t.record ++ [t.field] = s.record ++ fields cells ∧ t.records = s.records ∧
      (t.mode = .fresh → s.mode = .fresh ∧ cells.length = 1) := by
  induction cells generalizing s with
  | nil => exact absurd rfl hne
  | cons c cells ih =>
    have hc := hcells c (List.mem_cons_self ..)
    match cells with
    | [] =>
      obtain ⟨t, ht, hopen, hf, hr, hrs, hfresh⟩ := hc s hs
      exact ⟨t, by rw [line_singleton, ht], hopen, by rw [hr, hf]; rfl, hrs,
        fun h => ⟨hfresh h, rfl⟩⟩
    | d :: cells =>
      obtain ⟨t, ht, hopen, hfs, hrs, hfresh⟩ :=
        ih (fun c hc => hcells c (List.mem_cons_of_mem _ hc)) (List.cons_ne_nil _ _)
          (s := { s with mode := .start, record := s.record ++ [c.field] }) ⟨Or.inr rfl, hs.2⟩
      refine ⟨t, ?_, hopen, ?_, hrs, ?_⟩
      · rw [line_cons, List.append_cons, run_append, hc.run_comma hs, Option.bind_some, ht]
      · rw [hfs, List.append_assoc]
        rfl
      · exact fun h => nomatch (hfresh h).1

/-- A record of sound cells and the line feed behind it. -/
theorem run_line_lf {cells : List Cell} (hcells : ∀ c ∈ cells, c.Sound) (hne : cells ≠ [])
    (rs : List Record) :
    run (line cells ++ ['\n']) (done rs) = some (done (rs ++ [fields cells])) := by
  obtain ⟨t, ht, hopen, hfs, hrs, -⟩ := run_line hcells hne (ready_done rs)
  rw [run_append, ht, Option.bind_some, run_cons, step_lf hopen, Option.bind_some, run_nil,
    State.endRecord, hfs, hrs]
  rfl

/-- A record of at least two sound cells at the end of the text. -/
theorem readFrom_line {cells : List Cell} (hcells : ∀ c ∈ cells, c.Sound)
    (htwo : 2 ≤ cells.length) (rs : List Record) :
    readFrom (done rs) (line cells) = some (rs ++ [fields cells]) := by
  obtain ⟨t, ht, hopen, hfs, hrs, hfresh⟩ :=
    run_line hcells (List.length_pos_iff.mp (by omega)) (ready_done rs)
  rw [readFrom, ht, Option.bind_some, finish]
  split
  · rename_i hmode
    have := (hfresh hmode).2
    omega
  · rename_i hmode
    exact absurd hmode hopen.1
  iterate 3 rw [hfs, hrs]; rfl
  rename_i hmode
  exact absurd hmode hopen.2

/-! ## Texts

A cell is decided by `P` if it is sound where `P` holds and garbled where it
does not: a text of decided cells is read as its fields if and only if `P`
holds of them all. -/

def Decided (P : Cell → Prop) (c : Cell) : Prop := (P c → c.Sound) ∧ (¬ P c → c.Garbled)

section Texts

variable {P : Cell → Prop}

/-- A record read as its fields has good cells only. -/
theorem good_of_line {cells : List Cell} (hcells : ∀ c ∈ cells, Decided P c) {s : State}
    (hs : s.Ready) {rest : List Char} (hrest : rest.head? ≠ some '"') {rs : List Record}
    {x : Record} (hread : readFrom s (line cells ++ rest) = some rs)
    (hx : s.record ++ fields cells <+: x) (hrs : s.records ++ [x] <+: rs) : ∀ c ∈ cells, P c := by
  induction cells generalizing s with
  | nil => exact fun c hc => absurd hc List.not_mem_nil
  | cons c cells ih =>
    obtain ⟨hsound, hgarbled⟩ := hcells c (List.mem_cons_self ..)
    have hfirst : s.record ++ [c.field] <+: x :=
      (List.prefix_append_right_inj s.record |>.mpr (List.prefix_append [c.field] _)).trans hx
    match cells with
    | [] =>
      rw [line_singleton] at hread
      have hc : P c := by_contra fun h => hgarbled h s rest rs x hs hrest hread hfirst hrs
      exact List.forall_mem_singleton.mpr hc
    | d :: cells =>
      rw [line_cons, List.append_assoc, List.cons_append] at hread
      have hc : P c := by_contra fun h => hgarbled h s _ rs x hs (by simp) hread hfirst hrs
      rw [List.append_cons, readFrom_append ((hsound hc).run_comma hs)] at hread
      have hrest := ih (fun e he => hcells e (List.mem_cons_of_mem _ he))
        (s := { s with mode := .start, record := s.record ++ [c.field] })
        ⟨Or.inr rfl, hs.2⟩ hread (by rw [List.append_assoc]; exact hx) hrs
      exact List.forall_mem_cons.mpr ⟨hc, hrest⟩

/-- Records with a line feed behind each. -/
def lines (rows : List (List Cell)) : List Char := rows.flatMap fun row => line row ++ ['\n']

/-- Records with a line feed between them. -/
def joined (rows : List (List Cell)) : List Char := ['\n'].intercalate (rows.map line)

theorem lines_cons (row : List Cell) (rows : List (List Cell)) :
    lines (row :: rows) = line row ++ '\n' :: lines rows := by
  simp [lines]

theorem joined_singleton (row : List Cell) : joined [row] = line row := by
  simp [joined, List.intercalate]

theorem joined_cons (row row' : List Cell) (rows : List (List Cell)) :
    joined (row :: row' :: rows) = line row ++ '\n' :: joined (row' :: rows) := by
  simp [joined, List.intercalate]

/-- A record of good cells, its line feed and what follows it. -/
theorem readFrom_record {row : List Cell} (hrow : row ≠ []) (hcells : ∀ c ∈ row, Decided P c)
    (hP : ∀ c ∈ row, P c) (rs : List Record) (rest : List Char) :
    readFrom (done rs) (line row ++ '\n' :: rest) = readFrom (done (rs ++ [fields row])) rest := by
  rw [List.append_cons]
  exact readFrom_append (run_line_lf (fun c hc => (hcells c hc).1 (hP c hc)) hrow rs)

/-- The first record of a text, with what is behind its line feed. -/
theorem readFrom_record_iff {row : List Cell} (hrow : row ≠ []) (hcells : ∀ c ∈ row, Decided P c)
    (rs more : List Record) (rest : List Char) :
    readFrom (done rs) (line row ++ '\n' :: rest) = some (rs ++ fields row :: more) ↔
      (∀ c ∈ row, P c) ∧
        readFrom (done (rs ++ [fields row])) rest = some ((rs ++ [fields row]) ++ more) := by
  rw [List.append_cons rs]
  constructor
  · intro h
    have hP := good_of_line hcells (ready_done rs) (by simp) h (List.prefix_refl _)
      (List.prefix_append _ _)
    exact ⟨hP, (readFrom_record hrow hcells hP rs rest).symm.trans h⟩
  · rintro ⟨hP, h⟩
    exact (readFrom_record hrow hcells hP rs rest).trans h

theorem readFrom_lines_iff {rows : List (List Cell)} (hrows : ∀ row ∈ rows, row ≠ [])
    (hcells : ∀ row ∈ rows, ∀ c ∈ row, Decided P c) (rs : List Record) :
    readFrom (done rs) (lines rows) = some (rs ++ rows.map fields) ↔
      ∀ row ∈ rows, ∀ c ∈ row, P c := by
  induction rows generalizing rs with
  | nil =>
    show some rs = some (rs ++ []) ↔ _
    rw [List.append_nil]
    exact ⟨fun _ row hrow => absurd hrow List.not_mem_nil, fun _ => rfl⟩
  | cons row rows ih =>
    obtain ⟨hrow, hrows⟩ := List.forall_mem_cons.mp hrows
    rw [lines_cons, List.map_cons,
      readFrom_record_iff hrow (hcells row (List.mem_cons_self ..)),
      ih hrows fun r hr => hcells r (List.mem_cons_of_mem _ hr)]
    exact (List.forall_mem_cons (p := fun r => ∀ c ∈ r, P c)).symm

/-- **Records with a line feed behind each** are read back if and only if
every cell is good. -/
theorem read_lines_iff {rows : List (List Cell)} (hrows : ∀ row ∈ rows, row ≠ [])
    (hcells : ∀ row ∈ rows, ∀ c ∈ row, Decided P c) :
    read (lines rows) = some (rows.map fields) ↔ ∀ row ∈ rows, ∀ c ∈ row, P c :=
  readFrom_lines_iff hrows hcells []

theorem readFrom_joined_iff {row : List Cell} {rows : List (List Cell)}
    (hrows : ∀ r ∈ row :: rows, 2 ≤ r.length)
    (hcells : ∀ r ∈ row :: rows, ∀ c ∈ r, Decided P c) (rs : List Record) :
    readFrom (done rs) (joined (row :: rows)) = some (rs ++ (row :: rows).map fields) ↔
      ∀ r ∈ row :: rows, ∀ c ∈ r, P c := by
  induction rows generalizing row rs with
  | nil =>
    have hrow := hcells row (List.mem_cons_self ..)
    rw [joined_singleton]
    constructor
    · intro h r hr
      rw [List.mem_singleton.mp hr]
      have hnil : ([] : List Char).head? ≠ some '"' := by simp
      exact good_of_line hrow (ready_done rs) hnil (by rw [List.append_nil]; exact h)
        (List.prefix_refl _) (List.prefix_refl _)
    · intro h
      exact readFrom_line (fun c hc => (hrow c hc).1 (h row (List.mem_cons_self ..) c hc))
        (hrows row (List.mem_cons_self ..)) rs
  | cons row' rows ih =>
    have hrow : row ≠ [] := by
      have := hrows row (List.mem_cons_self ..)
      exact List.length_pos_iff.mp (by omega)
    rw [joined_cons, List.map_cons,
      readFrom_record_iff hrow (hcells row (List.mem_cons_self ..)),
      ih (fun r hr => hrows r (List.mem_cons_of_mem _ hr))
        fun r hr => hcells r (List.mem_cons_of_mem _ hr)]
    exact (List.forall_mem_cons (p := fun r => ∀ c ∈ r, P c)).symm

/-- **Records with a line feed between them**, each of at least two fields,
are read back if and only if every cell is good. -/
theorem read_joined_iff {row : List Cell} {rows : List (List Cell)}
    (hrows : ∀ r ∈ row :: rows, 2 ≤ r.length)
    (hcells : ∀ r ∈ row :: rows, ∀ c ∈ r, Decided P c) :
    read (joined (row :: rows)) = some ((row :: rows).map fields) ↔
      ∀ r ∈ row :: rows, ∀ c ∈ r, P c :=
  readFrom_joined_iff hrows hcells []

/-- The first cell of a record is read, whatever follows it. -/
theorem head_of_readFrom {c d : Cell} {cells : List Cell} (hc : c.Sound) {rs more : List Record}
    {x : Record} {rest : List Char}
    (hread : readFrom (done rs) (line (c :: d :: cells) ++ rest) = some (rs ++ x :: more)) :
    x.head? = some c.field := by
  rw [line_cons, List.append_assoc, List.cons_append, List.append_cons,
    readFrom_append (hc.run_comma (ready_done rs))] at hread
  rcases stays_readFrom hread (by rintro (h | h) <;> cases h) with ⟨-, h⟩ | ⟨y, hy, hrs⟩
  · exact absurd (List.prefix_nil.mp h) (List.append_ne_nil_of_right_ne_nil _ (by simp))
  · have hyx : y = x := prefix_unique (show rs ++ [y] <+: rs ++ x :: more from hrs) ⟨more, by simp⟩
    obtain ⟨fs, rfl⟩ := hy
    rw [← hyx]
    rfl

/-- A row whose first field is read and tells it from the others in `result`. -/
def Keyed (P : Cell → Prop) (result : List Record) (row : List Cell) : Prop :=
  ∃ c d cells, row = c :: d :: cells ∧ P c ∧
    ∀ x ∈ result, x.head? = some c.field → x = fields row

theorem good_of_first {row : List Cell} (hcells : ∀ c ∈ row, Decided P c) {rs result : List Record}
    (hkeyed : Keyed P result row) {rest : List Char} (hrest : rest.head? ≠ some '"')
    (hread : readFrom (done rs) (line row ++ rest) = some (rs ++ result)) (hne : result ≠ []) :
    (∀ c ∈ row, P c) ∧ ∃ more, result = fields row :: more := by
  obtain ⟨c, d, cells, rfl, hc, hkey⟩ := hkeyed
  match result with
  | x :: more =>
    have hx : x = fields (c :: d :: cells) := hkey x (List.mem_cons_self ..)
      (head_of_readFrom ((hcells c (List.mem_cons_self ..)).1 hc) hread)
    subst hx
    exact ⟨good_of_line hcells (ready_done rs) hrest hread (List.prefix_refl _)
      ⟨more, by simp [done]⟩, more, rfl⟩

/-- A text is read as records whose first fields tell them apart: then every
cell is good, in whatever order the records are. -/
theorem good_of_readFrom_joined {row : List Cell} {rows : List (List Cell)}
    {rs result : List Record}
    (hread : readFrom (done rs) (joined (row :: rows)) = some (rs ++ result))
    (hlen : (row :: rows).length ≤ result.length)
    (hcells : ∀ r ∈ row :: rows, ∀ c ∈ r, Decided P c)
    (hkeyed : ∀ r ∈ row :: rows, Keyed P result r) : ∀ r ∈ row :: rows, ∀ c ∈ r, P c := by
  have hne : result ≠ [] := List.length_pos_iff.mp (by rw [List.length_cons] at hlen; omega)
  induction rows generalizing row rs result with
  | nil =>
    rw [joined_singleton, ← List.append_nil (line _)] at hread
    exact List.forall_mem_singleton.mpr (good_of_first (hcells row (List.mem_cons_self ..))
      (hkeyed row (List.mem_cons_self ..)) (by simp) hread hne).1
  | cons row' rows ih =>
    have hrow := hcells row (List.mem_cons_self ..)
    rw [joined_cons] at hread
    obtain ⟨hgood, more, rfl⟩ :=
      good_of_first hrow (hkeyed row (List.mem_cons_self ..)) (by simp) hread hne
    have hrowne : row ≠ [] := by
      obtain ⟨c, d, cells, rfl, -⟩ := hkeyed row (List.mem_cons_self ..)
      exact List.cons_ne_nil _ _
    have hread' : readFrom (done (rs ++ [fields row])) (joined (row' :: rows)) =
        some ((rs ++ [fields row]) ++ more) := by
      rw [← List.append_cons, ← hread, readFrom_record hrowne hrow hgood]
    have hkeyed' : ∀ r ∈ row' :: rows, Keyed P more r := fun r hr => by
      obtain ⟨c, d, cells, heq, hc, hkey⟩ := hkeyed r (List.mem_cons_of_mem _ hr)
      exact ⟨c, d, cells, heq, hc, fun x hx => hkey x (List.mem_cons_of_mem _ hx)⟩
    simp only [List.length_cons] at hlen
    have hrest := ih hread' (by simp only [List.length_cons]; omega)
      (fun r hr => hcells r (List.mem_cons_of_mem _ hr)) hkeyed' (List.length_pos_iff.mp (by omega))
    exact List.forall_mem_cons.mpr ⟨hgood, hrest⟩

end Texts

/-! ## Writing a field -/

/-- A field between quotes, with every quote in it doubled. -/
def doubled (f : Field) : List Char := f.flatMap fun c => if c = '"' then ['"', '"'] else [c]

def quote (f : Field) : List Char := '"' :: doubled f ++ ['"']

@[simp] theorem doubled_nil : doubled [] = [] := rfl

theorem doubled_cons (c : Char) (f : Field) :
    doubled (c :: f) = (if c = '"' then ['"', '"'] else [c]) ++ doubled f := rfl

theorem doubled_eq_self {f : Field} (h : '"' ∉ f) : doubled f = f := by
  induction f with
  | nil => rfl
  | cons c f ih =>
    obtain ⟨hc, hf⟩ := not_or.mp (mt List.mem_cons.mpr h)
    rw [doubled_cons, if_neg (Ne.symm hc), ih hf]
    rfl

/-- No character of the field ends it or opens quotes. -/
def Plain (f : Field) : Prop := ∀ c ∈ f, c ≠ '"' ∧ c ≠ ',' ∧ c ≠ '\n' ∧ c ≠ '\r'

instance (f : Field) : Decidable (Plain f) := List.decidableBAll _ f

/-- Characters of a plain field are read one by one. -/
theorem run_plain {f : Field} (hf : Plain f) {s : State} (hs : s.mode = .plain) :
    run f s = some { s with field := s.field ++ f } := by
  induction f generalizing s with
  | nil => rw [List.append_nil, run_nil]
  | cons c f ih =>
    obtain ⟨hc, hrest⟩ := List.forall_mem_cons.mp hf
    have hstep : step s c = some (s.push .plain c) := by
      simp [step, hs, delimit, hc]
    rw [run_cons, hstep, Option.bind_some, ih hrest rfl]
    simp [State.push, hs]

/-- A plain field needs no quotes. -/
theorem sound_plain {f : Field} (hf : Plain f) : (Cell.mk f f).Sound := by
  intro s hs
  obtain ⟨hmode, hfield⟩ := hs
  cases f with
  | nil =>
    exact ⟨s, rfl, by rcases hmode with h | h <;> simp [State.Open, h], hfield, rfl, rfl, id⟩
  | cons c f =>
    obtain ⟨hc, hrest⟩ := List.forall_mem_cons.mp hf
    have hstep : step s c = some (s.push .plain c) := by
      rcases hmode with h | h <;> simp [step, h, openField, delimit, hc]
    refine ⟨{ s with mode := .plain, field := c :: f }, ?_, ⟨nofun, nofun⟩, rfl, rfl, rfl, nofun⟩
    rw [run_cons, hstep, Option.bind_some, run_plain hrest rfl]
    simp [State.push, hfield]

/-- Doubled quotes stand for quotes. -/
theorem run_doubled (f : Field) {s : State} (hs : s.mode = .quoted) :
    run (doubled f) s = some { s with field := s.field ++ f } := by
  induction f generalizing s with
  | nil => simp
  | cons c f ih =>
    have hnext := ih (s := s.push .quoted c) rfl
    rw [doubled_cons, run_append]
    by_cases hc : c = '"'
    · simp [hc, run_cons, step, hs, State.push] at hnext ⊢
      exact hnext
    · simp [hc, run_cons, step, hs, State.push] at hnext ⊢
      exact hnext

/-- A quoted field is read back whatever it holds. -/
theorem sound_quote (f : Field) : (Cell.mk (quote f) f).Sound := by
  intro s hs
  obtain ⟨hmode, hfield⟩ := hs
  have hopen : step s '"' = some { s with mode := .quoted } := by
    rcases hmode with h | h <;> simp [step, h, openField]
  refine ⟨{ s with mode := .closing, field := f }, ?_, ⟨nofun, nofun⟩, rfl, rfl, rfl, nofun⟩
  rw [quote, List.cons_append, run_cons, hopen, Option.bind_some, run_append,
    run_doubled f rfl, Option.bind_some, run_cons]
  simp [step, hfield]

/-! ## Fields that are read wrongly -/

/-- An unquoted field with a CR in it ends its record there. -/
theorem garbled_of_cr {f : Field} (hcr : '\r' ∈ f)
    (hothers : ∀ c ∈ f, c ≠ '"' ∧ c ≠ ',' ∧ c ≠ '\n') : (Cell.mk f f).Garbled := by
  intro s rest rs x hs _ hread hx hrs
  obtain ⟨u, v, rfl, hu⟩ := List.eq_append_cons_of_mem hcr
  have hplain : Plain u := fun c hc => by
    obtain ⟨hq, hcomma, hlf⟩ := hothers c (List.mem_append_left _ hc)
    exact ⟨hq, hcomma, hlf, fun h => hu (h ▸ hc)⟩
  obtain ⟨t, ht, hopen, hf, hr, hrecords, -⟩ := sound_plain hplain s hs
  have hcut : run (u ++ ['\r']) s = some (t.endRecord .cr) := by
    rw [run_append, ht, Option.bind_some, run_cons, step_cr hopen]
    rfl
  rw [List.append_cons, List.append_assoc, readFrom_append hcut] at hread
  -- the record that ended at the CR has the beginning of the field for its last
  have hread' : s.records ++ [s.record ++ [u]] <+: rs := by
    rcases stays_readFrom hread (fun _ => rfl) with ⟨h, -⟩ | ⟨y, -, h⟩
    · rw [h, State.endRecord, hf, hr, hrecords]
    · rw [State.endRecord, hf, hr, hrecords] at h
      exact (List.prefix_append _ _).trans h
  rw [prefix_unique hrs hread', List.prefix_append_right_inj, List.cons_prefix_cons] at hx
  have hlen := congrArg List.length hx.1
  simp at hlen

/-- The text that follows `s` holds the rest of a quoted field, its quotes
doubled, and a closing quote; and `rs` has the field in its place. -/
def ReadsQuoted (s : State) (text : List Char) (rs : List Record) : Prop :=
  ∃ g rest, text = doubled g ++ '"' :: rest ∧ rest.head? ≠ some '"' ∧
    ∃ x, s.record ++ [s.field ++ g] <+: x ∧ s.records ++ [x] <+: rs

theorem ReadsQuoted.cons {s : State} {c : Char} {text text' : List Char} {rs : List Record}
    (h : ReadsQuoted (s.push .quoted c) text rs)
    (htext : text' = (if c = '"' then ['"', '"'] else [c]) ++ text) : ReadsQuoted s text' rs := by
  obtain ⟨g, rest, rfl, hrest, x, hx, hrs⟩ := h
  refine ⟨c :: g, rest, ?_, hrest, x, ?_, hrs⟩
  · rw [htext, doubled_cons, List.append_assoc]
  · rw [List.append_cons s.field]
    exact hx

/-- Behind a quote that closes its field the field is complete. -/
theorem readsQuoted_nil {s : State} {cs : List Char} {rs : List Record} (hs : s.mode = .closing)
    (hcs : cs.head? ≠ some '"') (hread : readFrom s cs = some rs) :
    ReadsQuoted s ('"' :: cs) rs := by
  refine ⟨[], cs, rfl, hcs, ?_⟩
  rw [List.append_nil]
  cases cs with
  | nil =>
    rw [readFrom, run_nil, Option.bind_some, finish, hs] at hread
    exact ⟨_, List.prefix_refl _, Option.some.inj hread ▸ List.prefix_refl _⟩
  | cons c cs =>
    have hc : c ≠ '"' := fun h => hcs (congrArg some h)
    obtain ⟨t, ht, hfin⟩ := Option.bind_eq_some_iff.mp hread
    rw [run_cons] at ht
    obtain ⟨u, hu, ht⟩ := Option.bind_eq_some_iff.mp ht
    have hreadu : readFrom u cs = some rs := Option.bind_eq_some_iff.mpr ⟨t, ht, hfin⟩
    have hdelimit : delimit s c = some u := by simpa [step, hs, hc] using hu
    unfold delimit at hdelimit
    split at hdelimit
    · cases hdelimit
      rcases stays_readFrom hreadu (by rintro (h | h) <;> cases h) with ⟨-, h⟩ | h
      · exact absurd (List.prefix_nil.mp h) (List.append_ne_nil_of_right_ne_nil _ (by simp))
      · exact h
    · have hend : ∃ m, u = s.endRecord m := by
        split at hdelimit
        · exact ⟨_, (Option.some.inj hdelimit).symm⟩
        · split at hdelimit
          · exact ⟨_, (Option.some.inj hdelimit).symm⟩
          · cases hdelimit
      obtain ⟨m, rfl⟩ := hend
      rcases stays_readFrom hreadu (fun _ => rfl) with ⟨h, -⟩ | ⟨y, -, h⟩
      · exact ⟨_, List.prefix_refl _, h ▸ List.prefix_refl _⟩
      · exact ⟨_, List.prefix_refl _, (List.prefix_append _ _).trans h⟩

/-- What reading on from inside a quoted field, or from behind a quote in it,
makes of the field. -/
theorem readsQuoted_of_readFrom (cs : List Char) :
    (∀ s rs, s.mode = .quoted → readFrom s cs = some rs → ReadsQuoted s cs rs) ∧
    (∀ s rs, s.mode = .closing → readFrom s cs = some rs → ReadsQuoted s ('"' :: cs) rs) := by
  induction cs with
  | nil =>
    refine ⟨fun s rs hs hread => ?_, fun s rs hs hread => readsQuoted_nil hs nofun hread⟩
    rw [readFrom, run_nil, Option.bind_some, finish, hs] at hread
    cases hread
  | cons c cs ih =>
    obtain ⟨ihquoted, ihclosing⟩ := ih
    have hstep {s t : State} {rs : List Record} (h : step s c = some t)
        (hread : readFrom s (c :: cs) = some rs) : readFrom t cs = some rs := by
      rw [readFrom, run_cons, h] at hread
      exact hread
    by_cases hc : c = '"'
    · subst hc
      constructor
      · intro s rs hs hread
        exact ihclosing { s with mode := .closing } rs rfl (hstep (by simp [step, hs]) hread)
      · intro s rs hs hread
        exact (ihquoted (s.push .quoted '"') rs rfl (hstep (by simp [step, hs]) hread)).cons rfl
    · constructor
      · intro s rs hs hread
        exact (ihquoted (s.push .quoted c) rs rfl (hstep (by simp [step, hs, hc]) hread)).cons
          (by rw [if_neg hc]; rfl)
      · intro s rs hs hread
        exact readsQuoted_nil hs (fun h => hc (Option.some.inj h)) hread

/-- A text that holds a field with quotes as it is does not hold it with the
quotes doubled, however many quotes have been passed over. -/
theorem not_doubled {f : Field} {rest rest' : List Char} (hrest : rest.head? ≠ some '"') (m : ℕ)
    (hm : 0 < m ∨ '"' ∈ f) :
    f ++ '"' :: rest ≠ List.replicate m '"' ++ (doubled f ++ '"' :: rest') := by
  induction f generalizing m with
  | nil =>
    intro h
    match m with
    | 0 => simp at hm
    | 1 =>
      have hhead := congrArg List.head? (List.cons.inj h).2
      exact hrest hhead
    | m + 2 =>
      have hhead := congrArg List.head? (List.cons.inj h).2
      exact hrest hhead
  | cons c f ih =>
    intro h
    rw [doubled_cons] at h
    by_cases hc : c = '"'
    · subst hc
      refine ih (m + 1) (Or.inl (Nat.succ_pos m)) ?_
      have hshift : List.replicate m '"' ++ (['"', '"'] ++ doubled f ++ '"' :: rest') =
          '"' :: (List.replicate (m + 1) '"' ++ (doubled f ++ '"' :: rest')) := by
        have hone (n : ℕ) (l : List Char) :
            List.replicate n '"' ++ '"' :: l = List.replicate (n + 1) '"' ++ l := by
          rw [List.replicate_succ', List.append_assoc]
          rfl
        rw [List.append_assoc, List.cons_append, hone, List.singleton_append, hone]
        rfl
      rw [if_pos rfl, hshift] at h
      exact (List.cons.inj h).2
    · rw [if_neg hc] at h
      match m with
      | 0 =>
        have hf : '"' ∈ f := by
          rcases hm with hm | hm
          · omega
          · exact (List.mem_cons.mp hm).resolve_left (Ne.symm hc)
        exact ih 0 (Or.inr hf) (List.cons.inj h).2
      | m + 1 => exact hc (List.cons.inj h).1

/-- A field with a quote in it that is put between quotes as it is. -/
theorem garbled_of_quote {f : Field} (hf : '"' ∈ f) :
    (Cell.mk ('"' :: f ++ ['"']) f).Garbled := by
  intro s rest rs x hs hrest hread hx hrs
  obtain ⟨hmode, hfield⟩ := hs
  have hopen : run ['"'] s = some { s with mode := .quoted } := by
    rcases hmode with h | h <;> simp [run_cons, step, h, openField]
  rw [List.append_assoc, List.cons_append, ← List.singleton_append, readFrom_append hopen] at hread
  obtain ⟨g, rest', htext, -, y, hy, hrs'⟩ := (readsQuoted_of_readFrom _).1 _ rs rfl hread
  rw [prefix_unique hrs hrs'] at hx
  have hg : f = g := by
    have h := List.prefix_of_prefix_length_le hx hy (by simp)
    rw [List.prefix_append_right_inj, List.cons_prefix_cons, hfield, List.nil_append] at h
    exact h.1
  rw [← hg] at htext
  exact not_doubled hrest 0 (Or.inr hf) (by simpa using htext)

end Csv
