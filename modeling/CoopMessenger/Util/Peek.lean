import CoopMessenger.Library.Readers

/-!
# Peeking into a body

`Peek` reads the first bytes of a stream into memory and gives a reader that
starts over: it is drained from the buffer first and then from the rest of the
stream.  The peeked reader is built as a reader, so it keeps the laws of readers
and can be peeked again.

**Results.**
* `peekFrom_spec`: what the buffer and the rest of the stream are.
* `peek_transparent`: a peeked reader gives the stream it was made from, and so does
  one that is peeked again.
* `peekFrom_eq_error_iff`: the streams that cannot be peeked.
-/

namespace CoopMessenger
namespace Util

open Library

universe v

variable {σ : Type v}

/-- A reader that can be peeked, over the states of the underlying one. -/
structure PeekedReadCloser (σ : Type v) where
  peekedBytes : List UInt8
  limitReached : Bool
  peeked : List UInt8
  underlying : σ
  closed : Bool
deriving Repr

/-- `Read` of a `bytes.Reader` that has the given bytes left. -/
def readBytes
    (left : List UInt8)
    (k : Nat) : Reading UInt8 × List UInt8 :=
  if left = [] then
    (⟨[], some .eof⟩, [])
  else
    (⟨left.take k, none⟩, left.drop k)

namespace PeekedReadCloser

/-- Reads from the peeked bytes and then from the underlying stream. -/
def read
    (R : Reader UInt8 σ)
    (r : PeekedReadCloser σ)
    (k : Nat) : Reading UInt8 × PeekedReadCloser σ :=
  if r.closed then
    (⟨[], some .eof⟩, r)
  else
    let (reading, peeked) := readBytes r.peeked k
    match reading.err with
    | some .eof =>
        ((R.read r.underlying k).1,
          { r with peeked := peeked, underlying := (R.read r.underlying k).2 })
    | some e => (⟨[], some e⟩, { r with peeked := peeked })
    | none => (reading, { r with peeked := peeked })

/-- Closes the reader; nothing can be read from it any more. -/
def close
    (r : PeekedReadCloser σ) : PeekedReadCloser σ :=
  { r with closed := true }

variable (R : Reader UInt8 σ)

/-- What a peeked reader has left. -/
def rest (r : PeekedReadCloser σ) : List UInt8 :=
  if r.closed then [] else r.peeked ++ R.rest r.underlying

/-- What the stream of a peeked reader ends with. -/
def ending (r : PeekedReadCloser σ) : ReadError :=
  if r.closed then .eof else R.ending r.underlying

@[simp] theorem rest_close
    (r : PeekedReadCloser σ) :
    r.close.rest R = [] := by
  rfl

/-- A read from a closed reader. -/
theorem read_of_closed
    {r : PeekedReadCloser σ}
    (h : r.closed = true)
    (k : Nat) :
    r.read R k = (⟨[], some .eof⟩, r) := by
  rw [read, if_pos h]

/-- Behind the buffer the underlying stream is read. -/
theorem read_of_drained
    {r : PeekedReadCloser σ}
    (hopen : r.closed = false)
    (hpeeked : r.peeked = [])
    (k : Nat) :
    r.read R k =
      ((R.read r.underlying k).1, { r with underlying := (R.read r.underlying k).2 }) := by
  rw [read, hopen, if_neg Bool.false_ne_true, readBytes, if_pos hpeeked, ← hpeeked]

/-- As long as there is something in the buffer it is read. -/
theorem read_of_peeked
    {r : PeekedReadCloser σ}
    (hopen : r.closed = false)
    (hpeeked : r.peeked ≠ [])
    (k : Nat) :
    r.read R k = (⟨r.peeked.take k, none⟩, { r with peeked := r.peeked.drop k }) := by
  rw [read, hopen, if_neg Bool.false_ne_true, readBytes, if_neg hpeeked]

/-- What a read of a peeked reader does, in its three cases. -/
theorem read_cases
    (r : PeekedReadCloser σ)
    (k : Nat) :
    (r.closed = true ∧ r.read R k = (⟨[], some .eof⟩, r)) ∨
    (r.closed = false ∧ r.peeked = [] ∧
      r.read R k =
        ((R.read r.underlying k).1, { r with underlying := (R.read r.underlying k).2 })) ∨
    (r.closed = false ∧ r.peeked ≠ [] ∧
      r.read R k = (⟨r.peeked.take k, none⟩, { r with peeked := r.peeked.drop k })) := by
  by_cases hclosed : r.closed = true
  · exact Or.inl ⟨hclosed, read_of_closed R hclosed k⟩
  · rw [Bool.not_eq_true] at hclosed
    by_cases hpeeked : r.peeked = []
    · exact Or.inr (Or.inl ⟨hclosed, hpeeked, read_of_drained R hclosed hpeeked k⟩)
    · exact Or.inr (Or.inr ⟨hclosed, hpeeked, read_of_peeked R hclosed hpeeked k⟩)

theorem read_length_le
    (r : PeekedReadCloser σ) (k : Nat) :
    (r.read R k).1.values.length ≤ k := by
  rcases r.read_cases R k with ⟨-, h⟩ | ⟨-, -, h⟩ | ⟨-, -, h⟩ <;> rw [h]
  · exact Nat.zero_le k
  · exact R.length_le r.underlying k
  · exact List.length_take_le k r.peeked

theorem read_split
    (r : PeekedReadCloser σ) (k : Nat) :
    r.rest R = (r.read R k).1.values ++ (r.read R k).2.rest R := by
  rcases r.read_cases R k with ⟨hclosed, h⟩ | ⟨hopen, hnil, h⟩ | ⟨hopen, -, h⟩ <;> rw [h]
  · rfl
  · simp only [rest, hopen, hnil, if_neg Bool.false_ne_true, List.nil_append]
    exact R.split r.underlying k
  · simp only [rest, hopen, if_neg Bool.false_ne_true]
    rw [← List.append_assoc, List.take_append_drop]

theorem ending_read
    (r : PeekedReadCloser σ) (k : Nat) :
    (r.read R k).2.ending R = r.ending R := by
  rcases r.read_cases R k with ⟨hclosed, h⟩ | ⟨hopen, hnil, h⟩ | ⟨hopen, -, h⟩ <;> rw [h]
  · simp only [ending, hopen, if_neg Bool.false_ne_true]
    exact R.ending_read r.underlying k
  · rfl

theorem read_stop
    (r : PeekedReadCloser σ) (k : Nat) (e : ReadError)
    (he : (r.read R k).1.err = some e) :
    e = r.ending R ∧ (r.read R k).2.rest R = [] := by
  rcases r.read_cases R k with ⟨hclosed, h⟩ | ⟨hopen, hnil, h⟩ | ⟨hopen, -, h⟩ <;>
    rw [h] at he ⊢
  · rw [ending, rest, if_pos hclosed, if_pos hclosed]
    exact ⟨(Option.some.inj he).symm, rfl⟩
  · obtain ⟨heq, hrest⟩ := R.stop r.underlying k e he
    simp only [ending, rest, hopen, hnil, if_neg Bool.false_ne_true, List.nil_append]
    exact ⟨heq, hrest⟩
  · exact absurd he (Option.some_ne_none e).symm

theorem read_patience
    (r : PeekedReadCloser σ) (k : Nat)
    (hk : 0 < k)
    (herr : (r.read R k).1.err = none)
    (hnil : (r.read R k).1.values = []) :
    R.patience (r.read R k).2.underlying < R.patience r.underlying := by
  rcases r.read_cases R k with ⟨-, h⟩ | ⟨-, -, h⟩ | ⟨-, hpeeked, h⟩ <;>
    rw [h] at herr hnil ⊢
  · exact absurd herr (Option.some_ne_none _)
  · exact R.patience_lt r.underlying k hk herr hnil
  · rcases List.take_eq_nil_iff.mp hnil with hzero | hempty
    · exact absurd hzero hk.ne'
    · exact absurd hempty hpeeked

/-- A peeked reader is a reader. -/
def reader : Reader UInt8 (PeekedReadCloser σ) where
  read := read R
  rest := rest R
  ending := ending R
  patience := fun r => R.patience r.underlying
  length_le := read_length_le R
  split := read_split R
  ending_read := ending_read R
  stop := read_stop R
  patience_lt := read_patience R

/-- Reads leave the peeked bytes and the flag as they are. -/
theorem peekedBytes_reads
    (r : PeekedReadCloser σ) (ks : List Nat) :
    ((reader R).reads r ks).2.peekedBytes = r.peekedBytes ∧
      ((reader R).reads r ks).2.limitReached = r.limitReached := by
  induction ks generalizing r with
  | nil =>
      exact ⟨rfl, rfl⟩
  | cons k ks ih =>
      have hkept : (r.read R k).2.peekedBytes = r.peekedBytes ∧
          (r.read R k).2.limitReached = r.limitReached := by
        rcases r.read_cases R k with ⟨-, h⟩ | ⟨-, -, h⟩ | ⟨-, -, h⟩ <;> rw [h] <;>
          exact ⟨rfl, rfl⟩
      obtain ⟨hbytes, hreached⟩ := ih (r.read R k).2
      exact ⟨hbytes.trans hkept.1, hreached.trans hkept.2⟩

end PeekedReadCloser

/-- Reads the underlying stream into memory up to the limit, which is never negative. -/
def peekFrom
    (R : Reader UInt8 σ)
    (underlying : σ)
    (limit : Nat) : Except ReadError (PeekedReadCloser σ) :=
  let read := R.readFull underlying limit
  match read.1.err with
  | some (.other message) => .error (.other message)
  | _ =>
      .ok
        { peekedBytes := read.1.values
          limitReached := decide (read.1.values.length = limit)
          underlying := read.2
          peeked := read.1.values
          closed := false }

/-- `Peek`; a missing stream is an empty one. -/
def peek
    (R : Reader UInt8 σ)
    (underlying : Option σ)
    (limit : Nat) : Except ReadError (PeekedReadCloser (Option σ)) :=
  peekFrom R.orEmpty underlying limit

/-- What is wanted of a reader that has been made by peeking into a stream. -/
structure Transparent
    (R : Reader UInt8 σ)
    (r : PeekedReadCloser σ)
    (stream : List UInt8)
    (limit : Nat) : Prop where
  peekedBytes : ∀ ks, ((PeekedReadCloser.reader R).reads r ks).2.peekedBytes = stream.take limit
  limitReached : ∀ ks, ((PeekedReadCloser.reader R).reads r ks).2.limitReached = true ↔
    limit ≤ stream.length
  delivers : (PeekedReadCloser.reader R).Delivers r stream .eof

section Peeking

variable (R : Reader UInt8 σ)

/-- A stream that ends in the end of the file can be peeked. -/
theorem peekFrom_spec
    {s : σ}
    (hend : R.ending s = .eof)
    (limit : Nat) :
    ∃ r, peekFrom R s limit = .ok r ∧
      r.rest R = R.rest s ∧ r.ending R = .eof ∧
      r.peekedBytes = (R.rest s).take limit ∧
      (r.limitReached = true ↔ limit ≤ (R.rest s).length) := by
  obtain ⟨hvalues, hrest, hending⟩ := R.readFull_spec s limit
  have herr : ∀ message, (R.readFull s limit).1.err ≠ some (.other message) := by
    intro message
    rw [R.err_readFull s limit, hend]
    split
    · exact (Option.some_ne_none _).symm
    · split <;> simp
  have hok : peekFrom R s limit =
      .ok
        { peekedBytes := (R.readFull s limit).1.values
          limitReached := decide ((R.readFull s limit).1.values.length = limit)
          underlying := (R.readFull s limit).2
          peeked := (R.readFull s limit).1.values
          closed := false } := by
    simp only [peekFrom]
  refine ⟨_, hok, ?_, hending.trans hend, hvalues, ?_⟩
  · rw [PeekedReadCloser.rest, if_neg Bool.false_ne_true, hvalues, hrest,
      List.take_append_drop]
  · rw [decide_eq_true_eq, hvalues, List.length_take]
    omega

/-- Peeking fails just for a stream that fails before the limit. -/
theorem peekFrom_eq_error_iff
    (s : σ)
    (limit : Nat)
    (e : ReadError) :
    peekFrom R s limit = .error e
      ↔
    (R.rest s).length < limit ∧ R.ending s = e ∧ ∃ message, e = .other message := by
  have herr := R.err_readFull s limit
  simp only [peekFrom]
  split
  case h_1 message heq =>
    rw [heq] at herr
    split at herr
    case isTrue => exact absurd herr (Option.some_ne_none _)
    case isFalse hlt =>
      split at herr
      case isTrue => simp at herr
      case isFalse =>
        have hending := Option.some.inj herr
        rw [← hending, Except.error.injEq]
        exact ⟨fun h => ⟨Nat.lt_of_not_le hlt, h, message, h.symm⟩, fun h => h.2.1⟩
  case h_2 hne =>
    refine ⟨fun h => absurd h (by simp), ?_⟩
    rintro ⟨hlt, hending, message, rfl⟩
    rw [if_neg (Nat.not_le_of_lt hlt), hending, if_neg (by simp)] at herr
    exact absurd herr (hne message)

/-- What peeking gives is transparent. -/
theorem transparent_peekFrom
    {s : σ}
    (hend : R.ending s = .eof)
    (limit : Nat) :
    ∃ r, peekFrom R s limit = .ok r ∧ r.ending R = .eof ∧
      Transparent R r (R.rest s) limit := by
  obtain ⟨r, hpeek, hrest, hending, hbytes, hreached⟩ := peekFrom_spec R hend limit
  have hdelivers := (PeekedReadCloser.reader R).delivers r
  refine ⟨r, hpeek, hending, ?_, ?_, ?_⟩
  · intro ks
    rw [(PeekedReadCloser.peekedBytes_reads R r ks).1, hbytes]
  · intro ks
    rw [(PeekedReadCloser.peekedBytes_reads R r ks).2, hreached]
  · rw [← hrest, ← hending]
    exact hdelivers

/--
Peeking gives the first bytes of a stream and a reader of all of it; so does peeking
into that reader, whatever has been read of it.
-/
theorem peek_transparent
    (underlying : Option σ)
    (hend : ∀ s, underlying = some s → R.ending s = .eof)
    (limit : Nat) :
    ∃ r, peek R underlying limit = .ok r ∧
      Transparent R.orEmpty r (R.orEmpty.rest underlying) limit ∧
      ∀ ks limit', ∃ r',
        peek (PeekedReadCloser.reader R.orEmpty)
          (some ((PeekedReadCloser.reader R.orEmpty).reads r ks).2) limit' = .ok r' ∧
        Transparent (PeekedReadCloser.reader R.orEmpty).orEmpty r'
          ((R.orEmpty.rest underlying).drop
            (Reader.given ((PeekedReadCloser.reader R.orEmpty).reads r ks).1).length)
          limit' := by
  have hend' : R.orEmpty.ending underlying = .eof := by
    cases underlying with
    | none => rfl
    | some s => exact hend s rfl
  obtain ⟨r, hpeek, hrest, hending, -⟩ := peekFrom_spec R.orEmpty hend' limit
  obtain ⟨r₁, hpeek₁, -, htransparent⟩ := transparent_peekFrom R.orEmpty hend' limit
  obtain rfl : r = r₁ := Except.ok.inj (hpeek.symm.trans hpeek₁)
  refine ⟨r, hpeek, htransparent, fun ks limit' => ?_⟩
  have hleft := (PeekedReadCloser.reader R.orEmpty).given_append_rest r ks
  have hending' := (PeekedReadCloser.reader R.orEmpty).ending_reads r ks
  have hagain : (PeekedReadCloser.reader R.orEmpty).orEmpty.ending
      (some ((PeekedReadCloser.reader R.orEmpty).reads r ks).2) = .eof :=
    hending'.trans hending
  obtain ⟨r', hpeek', -, htransparent'⟩ :=
    transparent_peekFrom (PeekedReadCloser.reader R.orEmpty).orEmpty hagain limit'
  refine ⟨r', hpeek', ?_⟩
  have hdrop : (R.orEmpty.rest underlying).drop
      (Reader.given ((PeekedReadCloser.reader R.orEmpty).reads r ks).1).length =
      (PeekedReadCloser.reader R.orEmpty).rest
        ((PeekedReadCloser.reader R.orEmpty).reads r ks).2 := by
    rw [← hrest]
    exact (congrArg _ hleft.symm).trans List.drop_left
  rw [hdrop]
  exact htransparent'

/-- A short text in two pieces, the end reported with the second one. -/
theorem peek_transparent_pieces :
    ∃ r, peek (pieceReader true) (some [[104, 101], [], [121]]) 2 = .ok r ∧
      Transparent (pieceReader true).orEmpty r
        ((pieceReader true).orEmpty.rest (some [[104, 101], [], [121]])) 2 ∧
      ∀ ks limit', ∃ r',
        peek (PeekedReadCloser.reader (pieceReader true).orEmpty)
          (some ((PeekedReadCloser.reader (pieceReader true).orEmpty).reads r ks).2)
          limit' = .ok r' ∧
        Transparent (PeekedReadCloser.reader (pieceReader true).orEmpty).orEmpty r'
          (((pieceReader true).orEmpty.rest (some [[104, 101], [], [121]])).drop
            (Reader.given
              ((PeekedReadCloser.reader (pieceReader true).orEmpty).reads r ks).1).length)
          limit' :=
  peek_transparent (pieceReader true) (some [[104, 101], [], [121]]) (fun _ _ => rfl) 2

end Peeking

end Util
end CoopMessenger
