import Martian.Error

/-!
# Bytes through `brw`: the MITM peek

The MITM branch of `handleConnectRequest` reads one byte of the client's stream through `brw`,
drains what `brw` has buffered, decides on TLS from the byte, and hands on
`io.MultiReader(bytes.NewReader(b), bytes.NewReader(buf), conn)`, which is to yield the client's
stream again.

A connection is the list of what its reads return (`Chunk`); a `bufio.Reader` over it is the
unread part of its buffer, its pending error, and those reads. Its `stream` is every byte it
will yield, in order. `handedOn_eq_stream` proves the peek hands on exactly the stream, and
decides on TLS from its first byte, when the peek's read returns a byte; the run where that
read returns none is `mitmPeek_zero_read`.

Non-goals:
- `bufio.Reader.Read`'s direct read into a `p` at least as long as the buffer is not modelled:
  the reads here are one byte long or drain a non-empty buffer;
- every chunk fits in `brw`'s buffer;
- the bytes of the tunnel: `drainBuffer` and `copySync`'s `io.CopyBuffer`, which hands the copy
  to the connections' own `WriteTo` or `ReadFrom` when they have one (a `*net.TCPConn` does).
  The engine of `Martian.Proxy.Handle` records them as its `drain` and `splice` events.
-/

namespace Martian

/-- What one `Read` of a connection returned: its bytes and its error. -/
structure Chunk where
  bytes : List UInt8
  err : Option Error

namespace Chunk

/-- The next `Read` of a connection: once its reads are used up, `0, io.EOF`. -/
def next : List Chunk → Chunk × List Chunk
  | [] => (⟨[], some .eof⟩, [])
  | c :: cs => (c, cs)

/-- Every byte a connection's reads return, in order. -/
def bytesOf (cs : List Chunk) : List UInt8 := cs.flatMap Chunk.bytes

@[simp] theorem bytesOf_nil : bytesOf [] = [] := rfl
@[simp] theorem bytesOf_cons (c : Chunk) (cs : List Chunk) :
    bytesOf (c :: cs) = c.bytes ++ bytesOf cs := rfl

end Chunk

/-- A `bufio.Reader`: the unread part of its buffer (`b.buf[b.r:b.w]`), its pending error
(`b.err`), and the reads its source will return. -/
structure BufReader where
  buffered : List UInt8
  err : Option Error
  source : List Chunk

namespace BufReader

/-- Every byte the reader will yield, in order. -/
def stream (b : BufReader) : List UInt8 := b.buffered ++ Chunk.bytesOf b.source

/-- `b.Read(p)` with `len(p) = n` shorter than the buffer: the bytes copied into `p`, the error
returned, and the reader after. An empty buffer is refilled by one read of the source; a
pending error is returned once (`b.readErr()`). -/
def read (b : BufReader) (n : Nat) : List UInt8 × Option Error × BufReader :=
  if n = 0 then
    if b.buffered.isEmpty then ([], b.err, { b with err := none }) else ([], none, b)
  else if b.buffered.isEmpty then
    if b.err.isSome then ([], b.err, { b with err := none })
    else
      let (c, cs) := Chunk.next b.source
      if c.bytes.isEmpty then ([], c.err, { b with source := cs })
      else (c.bytes.take n, none, ⟨c.bytes.drop n, c.err, cs⟩)
  else (b.buffered.take n, none, { b with buffered := b.buffered.drop n })

theorem read_buffered {b : BufReader} {n : Nat} (hn : n ≠ 0) (hb : b.buffered ≠ []) :
    b.read n = (b.buffered.take n, none, { b with buffered := b.buffered.drop n }) := by
  simp [read, hn, hb]

theorem read_fill {b : BufReader} {n : Nat} {c : Chunk} {cs : List Chunk} (hn : n ≠ 0)
    (hb : b.buffered = []) (he : b.err = none) (hs : b.source = c :: cs) (hc : c.bytes ≠ []) :
    b.read n = (c.bytes.take n, none, ⟨c.bytes.drop n, c.err, cs⟩) := by
  simp [read, hn, hb, he, hs, Chunk.next, hc]

theorem read_zero_nil {b : BufReader} (hb : b.buffered = []) :
    (b.read 0).1 = [] ∧ ((b.read 0).2.2).source = b.source := by
  simp [read, hb]

/-- `brw.Read` of all that `brw` has buffered: the buffer, and nothing read from the source. -/
theorem read_all (b : BufReader) :
    (b.read b.buffered.length).1 = b.buffered ∧
      ((b.read b.buffered.length).2.2).source = b.source := by
  cases hb : b.buffered with
  | nil => simpa [hb] using read_zero_nil hb
  | cons x xs =>
    rw [read_buffered (by simp [hb]) (by simp [hb])]
    simp [hb]

end BufReader

/-! ## The MITM peek -/

section
open BufReader

/-- The MITM branch's peek, from `b := make([]byte, 1)` to `brw.Read(buf)` with
`buf := make([]byte, brw.Reader.Buffered())`: the byte left in `b` (zero when the read returned
none), the bytes read into `buf`, and the reads of `conn` still to come. -/
def mitmPeek (b : BufReader) : UInt8 × List UInt8 × List Chunk :=
  let (p, _, b) := b.read 1
  let (buf, _, b) := b.read b.buffered.length
  (p.headD 0, buf, b.source)

/-- What `io.MultiReader(bytes.NewReader(b), bytes.NewReader(buf), conn)` yields: the
`peekedConn`'s reader on the TLS path, `brw.Reader`'s source on the plaintext one. -/
def handedOn (b : BufReader) : List UInt8 :=
  (mitmPeek b).1 :: (mitmPeek b).2.1 ++ Chunk.bytesOf (mitmPeek b).2.2

/-- Whether the MITM branch takes the TLS path: `b[0] == 22`. -/
def takesTLS (b : BufReader) : Bool := (mitmPeek b).1 == 22

/-- The peek of a reader whose first `Read` copies the byte `x`. -/
theorem mitmPeek_of_read {b : BufReader} (b' : BufReader) {x : UInt8}
    (h : b.read 1 = ([x], none, b')) :
    mitmPeek b = (x, b'.buffered, b'.source) := by
  obtain ⟨h₁, h₂⟩ := read_all b'
  simp only [mitmPeek, h, h₁, h₂, List.headD_cons]

/-- When the peek's read returns a byte, the reader handed on yields exactly the client's
stream, and the TLS path is taken exactly when that stream starts with `0x16`. -/
theorem handedOn_eq_stream (b : BufReader)
    (h : b.buffered ≠ [] ∨ b.err = none ∧ ∃ c cs, b.source = c :: cs ∧ c.bytes ≠ []) :
    handedOn b = b.stream ∧ takesTLS b = (b.stream.head? == some 22) := by
  have hp : ∃ x rest cs, mitmPeek b = (x, rest, cs) ∧ b.stream = x :: rest ++ Chunk.bytesOf cs := by
    by_cases hb : b.buffered = []
    · obtain ⟨he, c, cs, hs, hc⟩ := h.resolve_left (not_not.mpr hb)
      obtain ⟨x, xs, hx⟩ := List.exists_cons_of_ne_nil hc
      refine ⟨x, xs, cs, mitmPeek_of_read ⟨xs, c.err, cs⟩ ?_, by simp [stream, hb, hs, hx]⟩
      simp [read_fill Nat.one_ne_zero hb he hs hc, hx]
    · obtain ⟨x, xs, hx⟩ := List.exists_cons_of_ne_nil hb
      refine ⟨x, xs, b.source, mitmPeek_of_read { b with buffered := xs } ?_,
        by simp [stream, hx]⟩
      simp [read_buffered Nat.one_ne_zero hb, hx]
  obtain ⟨x, rest, cs, hm, hs⟩ := hp
  simp [handedOn, takesTLS, hm, hs]

theorem handedOn_eq_stream_clientHello :
    handedOn ⟨[], none, [⟨[0x16, 0x03, 0x01], none⟩]⟩ = [0x16, 0x03, 0x01] ∧
      takesTLS ⟨[], none, [⟨[0x16, 0x03, 0x01], none⟩]⟩ = true :=
  handedOn_eq_stream ⟨[], none, [⟨[0x16, 0x03, 0x01], none⟩]⟩
    (.inr ⟨rfl, _, _, rfl, by simp⟩)

/-- A client whose first read after the MITM `200` times out with no byte, and who then sends
the start of a TLS ClientHello: the peek hands on the stream with a zero byte in front of it,
and takes the plaintext path. -/
theorem mitmPeek_zero_read :
    BufReader.stream ⟨[], none, [⟨[], some (.timeout "i/o timeout")⟩, ⟨[0x16, 0x03, 0x01], none⟩]⟩ =
        [0x16, 0x03, 0x01] ∧
      handedOn ⟨[], none, [⟨[], some (.timeout "i/o timeout")⟩, ⟨[0x16, 0x03, 0x01], none⟩]⟩ =
        [0x00, 0x16, 0x03, 0x01] ∧
      takesTLS ⟨[], none, [⟨[], some (.timeout "i/o timeout")⟩, ⟨[0x16, 0x03, 0x01], none⟩]⟩ =
        false :=
  ⟨rfl, rfl, rfl⟩

end

end Martian
