import Mathlib.Data.List.Infix

/-!
# Readers

A reader gives a stream piece by piece: a read with room for `k` values returns
at most `k` of those that are left, and may report the end with the last of them
or only later.  It may also return nothing without reporting anything, but not
forever.  A stream ends with an error, the end of the file being one; the laws
are fields of the reader, so a reader that loses, repeats or invents values
cannot be built.

**Results.**
* `Reader.delivers`: by reads into buffers that are not empty, a reader gives the
  values that are left, in order, and then reports the end.
* `readFull_spec`: filling a buffer takes the first values of the stream.
* `chunks`: every way to cut a list into pieces is a reader of that list.
-/

namespace CoopMessenger
namespace Library

universe u v

/-- What a read reports besides its values. -/
inductive ReadError where
  | eof
  | unexpectedEOF
  | other (message : String)
deriving DecidableEq, Repr

/-- What one read returns. -/
structure Reading (α : Type u) where
  values : List α
  err : Option ReadError
deriving DecidableEq, Repr

/--
A reader: `rest` is what its state has left of the stream, `ending` the error the
stream ends with, and `patience` bounds the reads that may return nothing.
-/
structure Reader (α : Type u) (σ : Type v) where
  read : σ → Nat → Reading α × σ
  rest : σ → List α
  ending : σ → ReadError
  patience : σ → Nat
  length_le : ∀ s k, (read s k).1.values.length ≤ k
  split : ∀ s k, rest s = (read s k).1.values ++ rest (read s k).2
  ending_read : ∀ s k, ending (read s k).2 = ending s
  stop : ∀ s k e, (read s k).1.err = some e → e = ending s ∧ rest (read s k).2 = []
  patience_lt : ∀ s k, 0 < k → (read s k).1.err = none → (read s k).1.values = [] →
    patience (read s k).2 < patience s

namespace Reader

variable {α : Type u} {σ : Type v}
variable (R : Reader α σ)

/-- Reads with room for the given numbers of values, one after the other. -/
def reads (s : σ) : List Nat → List (Reading α) × σ
  | [] => ([], s)
  | k :: ks =>
      ((R.read s k).1 :: (reads (R.read s k).2 ks).1, (reads (R.read s k).2 ks).2)

/-- The values of the reads. -/
def given
    (rs : List (Reading α)) : List α :=
  rs.flatMap Reading.values

/-- Has one of the reads reported something? -/
def ended
    (rs : List (Reading α)) : Prop :=
  ∃ r ∈ rs, r.err ≠ none

/-- What the reads give and what is left are the stream. -/
theorem given_append_rest
    (s : σ) (ks : List Nat) :
    given (R.reads s ks).1 ++ R.rest (R.reads s ks).2 = R.rest s := by
  induction ks generalizing s with
  | nil =>
      rfl
  | cons k ks ih =>
      rw [R.split s k, ← ih (R.read s k).2]
      simp only [reads, given, List.flatMap_cons, List.append_assoc]

theorem ending_reads
    (s : σ) (ks : List Nat) :
    R.ending (R.reads s ks).2 = R.ending s := by
  induction ks generalizing s with
  | nil =>
      rfl
  | cons k ks ih =>
      rw [reads, ih, R.ending_read]

/-- Nothing comes from an empty stream. -/
theorem rest_read_of_rest_eq_nil
    {s : σ}
    (h : R.rest s = [])
    (k : Nat) :
    R.rest (R.read s k).2 = [] := by
  rw [R.split s k, List.append_eq_nil_iff] at h
  exact h.2

theorem rest_reads_of_rest_eq_nil
    {s : σ}
    (h : R.rest s = [])
    (ks : List Nat) :
    R.rest (R.reads s ks).2 = [] := by
  induction ks generalizing s with
  | nil =>
      exact h
  | cons k ks ih =>
      exact ih (R.rest_read_of_rest_eq_nil h k)

/-- Whatever the reads report is the ending, and then nothing is left. -/
theorem reported
    {s : σ} {ks : List Nat} {r : Reading α} {e : ReadError}
    (hr : r ∈ (R.reads s ks).1)
    (he : r.err = some e) :
    e = R.ending s ∧ R.rest (R.reads s ks).2 = [] := by
  induction ks generalizing s with
  | nil =>
      exact absurd hr List.not_mem_nil
  | cons k ks ih =>
      rcases List.mem_cons.mp hr with rfl | hr
      · obtain ⟨heq, hrest⟩ := R.stop s k e he
        exact ⟨heq, R.rest_reads_of_rest_eq_nil hrest ks⟩
      · have h := ih hr
        rwa [R.ending_read] at h

/-- Reads into buffers that are not empty come to the end of the stream. -/
theorem exists_ended
    (κ : Nat → Nat)
    (hκ : ∀ i, 0 < κ i)
    (s : σ) :
    ∃ n, ended (R.reads s ((List.range n).map κ)).1 := by
  -- Every read either gives a value or uses up some patience.
  suffices h : ∀ m p, ∀ (s : σ) (κ : Nat → Nat), (∀ i, 0 < κ i) →
      (R.rest s).length ≤ m → R.patience s ≤ p →
      ∃ n, ended (R.reads s ((List.range n).map κ)).1 from
    h _ _ s κ hκ (Nat.le_refl _) (Nat.le_refl _)
  intro m
  induction m using Nat.strong_induction_on with
  | _ m ihm =>
      intro p
      induction p using Nat.strong_induction_on with
      | _ p ihp =>
          intro s κ hκ hm hp
          have hsplit := congrArg List.length (R.split s (κ 0))
          rw [List.length_append] at hsplit
          have hnext : ∀ n, ended (R.reads (R.read s (κ 0)).2
              ((List.range n).map (fun i => κ (i + 1)))).1 →
              ended (R.reads s ((List.range (n + 1)).map κ)).1 := by
            intro n hn
            obtain ⟨r, hr, hne⟩ := hn
            refine ⟨r, ?_, hne⟩
            rw [List.range_succ_eq_map, List.map_cons, List.map_map]
            exact List.mem_cons_of_mem _ hr
          by_cases herr : (R.read s (κ 0)).1.err = none
          · by_cases hnil : (R.read s (κ 0)).1.values = []
            · have hlt := R.patience_lt s (κ 0) (hκ 0) herr hnil
              rw [hnil, List.length_nil, Nat.zero_add] at hsplit
              obtain ⟨n, hn⟩ := ihp (R.patience (R.read s (κ 0)).2) (by omega)
                (R.read s (κ 0)).2 (fun i => κ (i + 1)) (fun i => hκ (i + 1))
                (by omega) (Nat.le_refl _)
              exact ⟨n + 1, hnext n hn⟩
            · have hpos := List.length_pos_iff.mpr hnil
              obtain ⟨n, hn⟩ := ihm (R.rest (R.read s (κ 0)).2).length (by omega)
                (R.patience (R.read s (κ 0)).2)
                (R.read s (κ 0)).2 (fun i => κ (i + 1)) (fun i => hκ (i + 1))
                (Nat.le_refl _) (Nat.le_refl _)
              exact ⟨n + 1, hnext n hn⟩
          · exact ⟨1, _, List.mem_cons_self, herr⟩

/--
The reader gives the stream: what reads into buffers that are not empty return is
the beginning of the stream, all of it once the end is reported, and the end is
reported at last.
-/
structure Delivers
    (s : σ)
    (stream : List α)
    (ending : ReadError) : Prop where
  given_first : ∀ ks, (∀ k ∈ ks, 0 < k) → given (R.reads s ks).1 <+: stream
  whole : ∀ ks, (∀ k ∈ ks, 0 < k) → ∀ r ∈ (R.reads s ks).1, ∀ e, r.err = some e →
    e = ending ∧ given (R.reads s ks).1 = stream
  ends : ∀ κ : Nat → Nat, (∀ i, 0 < κ i) →
    ∃ n, ended (R.reads s ((List.range n).map κ)).1

/-- Every reader gives what it has left. -/
theorem delivers
    (s : σ) :
    R.Delivers s (R.rest s) (R.ending s) where
  given_first := fun ks _ => ⟨_, R.given_append_rest s ks⟩
  whole := by
    intro ks _ r hr e he
    obtain ⟨heq, hrest⟩ := R.reported hr he
    have hgiven := R.given_append_rest s ks
    rw [hrest, List.append_nil] at hgiven
    exact ⟨heq, hgiven⟩
  ends := fun κ hκ => R.exists_ended κ hκ s

section Filling

/-- A read without an error makes progress. -/
theorem progress
    {s : σ} {k : Nat}
    (hk : 0 < k)
    (herr : (R.read s k).1.err = none) :
    Prod.Lex (· < ·) (· < ·)
      ((R.rest (R.read s k).2).length, R.patience (R.read s k).2)
      ((R.rest s).length, R.patience s) := by
  have hsplit := congrArg List.length (R.split s k)
  rw [List.length_append] at hsplit
  by_cases hnil : (R.read s k).1.values = []
  · rw [hnil, List.length_nil, Nat.zero_add] at hsplit
    rw [hsplit]
    exact Prod.Lex.right _ (R.patience_lt s k hk herr hnil)
  · have hpos := List.length_pos_iff.mpr hnil
    exact Prod.Lex.left _ _ (by omega)

/-- Read until there are `k` values or an error is reported. -/
def fill
    (s : σ)
    (k : Nat) : Reading α × σ :=
  if _hk : k = 0 then
    (⟨[], none⟩, s)
  else if _herr : (R.read s k).1.err = none then
    let more := fill (R.read s k).2 (k - (R.read s k).1.values.length)
    (⟨(R.read s k).1.values ++ more.1.values, more.1.err⟩, more.2)
  else
    R.read s k
termination_by ((R.rest s).length, R.patience s)
decreasing_by
  exact R.progress (Nat.pos_of_ne_zero _hk) _herr

/-- What the loop reads are the first values of the stream. -/
theorem fill_spec
    (s : σ) (k : Nat) :
    (R.fill s k).1.values = (R.rest s).take k ∧
      R.rest (R.fill s k).2 = (R.rest s).drop k ∧
      R.ending (R.fill s k).2 = R.ending s ∧
      ((R.rest s).length < k → (R.fill s k).1.err = some (R.ending s)) := by
  fun_induction R.fill s k with
  | case1 s =>
      exact ⟨(List.take_zero ..).symm, rfl, rfl, fun h => absurd h (Nat.not_lt_zero _)⟩
  | case2 s k _ _ more ih =>
      obtain ⟨hvalues, hrest, hending, hshort⟩ := ih
      have hlen := R.length_le s k
      have hsplit := R.split s k
      rw [R.ending_read] at hending hshort
      refine ⟨?_, ?_, hending, fun hlt => hshort ?_⟩
      · rw [hvalues, hsplit, List.take_append, List.take_of_length_le hlen]
      · rw [hrest, hsplit, List.drop_append, List.drop_of_length_le hlen, List.nil_append]
      · rw [hsplit, List.length_append] at hlt
        omega
  | case3 s k _ herr =>
      have hlen := R.length_le s k
      have hsplit := R.split s k
      obtain ⟨e, he⟩ := Option.ne_none_iff_exists'.mp herr
      obtain ⟨heq, hnil⟩ := R.stop s k e he
      rw [hnil, List.append_nil] at hsplit
      refine ⟨?_, ?_, R.ending_read s k, fun _ => heq ▸ he⟩
      · rw [hsplit, List.take_of_length_le hlen]
      · rw [hnil, hsplit, List.drop_of_length_le hlen]

/-- `io.ReadFull` -/
def readFull
    (s : σ)
    (k : Nat) : Reading α × σ :=
  let filled := R.fill s k
  if k ≤ filled.1.values.length then
    (⟨filled.1.values, none⟩, filled.2)
  else if filled.1.values ≠ [] ∧ filled.1.err = some .eof then
    (⟨filled.1.values, some .unexpectedEOF⟩, filled.2)
  else
    filled

/-- A filled buffer holds the first values, and what comes behind them is left. -/
theorem readFull_spec
    (s : σ) (k : Nat) :
    (R.readFull s k).1.values = (R.rest s).take k ∧
      R.rest (R.readFull s k).2 = (R.rest s).drop k ∧
      R.ending (R.readFull s k).2 = R.ending s := by
  obtain ⟨hvalues, hrest, hending, -⟩ := R.fill_spec s k
  rw [readFull]
  split
  · exact ⟨hvalues, hrest, hending⟩
  · split
    · exact ⟨hvalues, hrest, hending⟩
    · exact ⟨hvalues, hrest, hending⟩

/-- An error is reported for a stream that is too short. -/
theorem err_readFull
    (s : σ) (k : Nat) :
    (R.readFull s k).1.err =
      if k ≤ (R.rest s).length then none
      else if R.rest s ≠ [] ∧ R.ending s = .eof then some .unexpectedEOF
      else some (R.ending s) := by
  obtain ⟨hvalues, -, -, hshort⟩ := R.fill_spec s k
  have hlen : k ≤ (R.fill s k).1.values.length ↔ k ≤ (R.rest s).length := by
    rw [hvalues, List.length_take]
    omega
  rw [readFull]
  by_cases hk : k ≤ (R.rest s).length
  · rw [if_pos (hlen.mpr hk), if_pos hk]
  · have hall : (R.fill s k).1.values = R.rest s := by
      rw [hvalues, List.take_of_length_le (by omega)]
    have herr := hshort (Nat.lt_of_not_le hk)
    rw [if_neg (fun h => hk (hlen.mp h)), if_neg hk]
    simp only [hall, herr, Option.some_inj]
    split
    · rfl
    · exact herr

end Filling

end Reader

section Pieces

variable {α : Type u}

/-- The pieces that are left when `k` values of the first piece have been read. -/
def piecesLeft
    (piece : List α)
    (pieces : List (List α))
    (k : Nat) : List (List α) :=
  if piece.length ≤ k then pieces else piece.drop k :: pieces

/--
A read from a list of pieces gives from one piece at a time; if `early`, the end
is reported with the last value.
-/
def readPieces
    (early : Bool) :
    List (List α) → Nat → Reading α × List (List α)
  | [], _ => (⟨[], some .eof⟩, [])
  | piece :: pieces, k =>
      ( ⟨piece.take k, if early ∧ (piecesLeft piece pieces k).flatten = [] then some .eof else none⟩,
        piecesLeft piece pieces k)

theorem readPieces_length_le
    (early : Bool)
    (pieces : List (List α)) (k : Nat) :
    (readPieces early pieces k).1.values.length ≤ k := by
  cases pieces with
  | nil =>
      exact Nat.zero_le k
  | cons piece pieces =>
      exact List.length_take_le k piece

/-- What is left of the pieces behind a read. -/
theorem readPieces_split
    (early : Bool)
    (pieces : List (List α)) (k : Nat) :
    pieces.flatten =
      (readPieces early pieces k).1.values ++ (readPieces early pieces k).2.flatten := by
  cases pieces with
  | nil =>
      rfl
  | cons piece pieces =>
      rw [readPieces, List.flatten_cons, piecesLeft]
      split
      case isTrue hle =>
        rw [List.take_of_length_le hle]
      case isFalse =>
        rw [List.flatten_cons, ← List.append_assoc, List.take_append_drop]

theorem readPieces_stop
    (early : Bool)
    (pieces : List (List α)) (k : Nat) (e : ReadError)
    (he : (readPieces early pieces k).1.err = some e) :
    e = .eof ∧ (readPieces early pieces k).2.flatten = [] := by
  cases pieces with
  | nil =>
      exact ⟨(Option.some.inj he).symm, rfl⟩
  | cons piece pieces =>
      obtain ⟨hend, heq⟩ := Option.ite_none_right_eq_some.mp he
      exact ⟨(Option.some.inj heq).symm, hend.2⟩

theorem readPieces_patience
    (early : Bool)
    (pieces : List (List α)) (k : Nat)
    (hk : 0 < k)
    (herr : (readPieces early pieces k).1.err = none)
    (hnil : (readPieces early pieces k).1.values = []) :
    (readPieces early pieces k).2.length < pieces.length := by
  cases pieces with
  | nil =>
      exact absurd herr (Option.some_ne_none _)
  | cons piece pieces =>
      have hempty : piece = [] := (List.take_eq_nil_iff.mp hnil).resolve_left hk.ne'
      subst hempty
      rw [readPieces, piecesLeft, List.length_nil, if_pos (Nat.zero_le k)]
      exact Nat.lt_succ_self _

/-- A reader of the pieces. -/
def pieceReader
    (early : Bool) : Reader α (List (List α)) where
  read := readPieces early
  rest := List.flatten
  ending := fun _ => .eof
  patience := List.length
  length_le := readPieces_length_le early
  split := readPieces_split early
  ending_read := fun _ _ => rfl
  stop := readPieces_stop early
  patience_lt := readPieces_patience early

end Pieces

section Missing

variable {α : Type u} {σ : Type v}

/-- The reader where there is one, and an empty stream elsewhere. -/
def Reader.orEmpty
    (R : Reader α σ) : Reader α (Option σ) where
  read := fun o k =>
    match o with
    | none => (⟨[], some .eof⟩, none)
    | some s => ((R.read s k).1, some (R.read s k).2)
  rest := fun o => o.elim [] R.rest
  ending := fun o => o.elim .eof R.ending
  patience := fun o => o.elim 0 R.patience
  length_le := by
    intro o k
    cases o with
    | none => exact Nat.zero_le k
    | some s => exact R.length_le s k
  split := by
    intro o k
    cases o with
    | none => rfl
    | some s => exact R.split s k
  ending_read := by
    intro o k
    cases o with
    | none => rfl
    | some s => exact R.ending_read s k
  stop := by
    intro o k e he
    cases o with
    | none => exact ⟨(Option.some.inj he).symm, rfl⟩
    | some s => exact R.stop s k e he
  patience_lt := by
    intro o k hk herr hnil
    cases o with
    | none => exact absurd herr (Option.some_ne_none _)
    | some s => exact R.patience_lt s k hk herr hnil

end Missing

end Library
end CoopMessenger
