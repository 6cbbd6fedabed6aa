import TurboMcp.Lib.Lines
import TurboMcp.Lib.Runs

/-!
# The line transport

`LineTransport::recv` reads one newline-terminated line into `buf` and hands
the trimmed line to the codec; blank lines are skipped.  A pending `recv`
future waits in `fill_buf`; when the caller's `select!` takes another branch
the future is dropped, and the next call starts by clearing `buf`.

The environment decides how the stream arrives (every non-empty chunk of what
is still unread) and when a pending future is dropped.
-/

namespace TurboMcp.Transport.Line

open TurboMcp.Lib

abbrev Bytes := List UInt8

def newline : UInt8 := 0x0a

/-- `u8::is_ascii_whitespace`. -/
def isAsciiWhitespace (b : UInt8) : Bool :=
  b = 0x20 || b = 0x09 || b = 0x0a || b = 0x0c || b = 0x0d

/-- `<[u8]>::trim_ascii`. -/
def trimAscii (line : Bytes) : Bytes := trim isAsciiWhitespace line

/-! ## Reading one frame -/

/-- Outcome of one bounded line read. -/
inductive LineRead
  | line
  | tooLong
  deriving DecidableEq

/-- The loop of `read_line_capped` up to the point where it needs more bytes
(`none`): what it reports, `buf`, and what it did not consume. -/
def readLineCapped (max : Nat) (buf available : Bytes) :
    Option LineRead × Bytes × Bytes :=
  if available.isEmpty then (none, buf, available)
  else
    let (take, done) := match available.findIdx? (· = newline) with
      | some i => (i + 1, true)
      | none => (available.length, false)
    if buf.length + take > max then (some .tooLong, buf, available)
    else
      let buf := buf ++ available.take take
      let available := available.drop take
      if done then (some .line, buf, available) else (none, buf, available)

/-- What `recv` returns: a line for the codec, end of stream, or the cap. -/
inductive Received
  | frame (line : Bytes)
  | eof
  | tooLong
  deriving DecidableEq

theorem readLineCapped_lt {max : Nat} {buf available buf' available' : Bytes}
    (h : readLineCapped max buf available = (some .line, buf', available')) :
    available'.length < available.length := by
  unfold readLineCapped at h
  split at h
  · simp at h
  · rename_i hne
    have hpos : 0 < available.length := by
      rw [List.isEmpty_iff] at hne
      exact List.length_pos_iff.mpr hne
    cases hidx : available.findIdx? (· = newline) with
    | none =>
        simp only [hidx] at h
        split at h <;> simp at h
    | some i =>
        simp only [hidx] at h
        split at h
        · simp at h
        · simp only [if_true, Prod.mk.injEq] at h
          rw [← h.2.2, List.length_drop]
          omega

/-- The loop of `recv` after `buf.clear()`, up to a result or to the point
where it waits for bytes (`none`). -/
def recvLoop (max : Nat) (buf available : Bytes) : Option Received × Bytes × Bytes :=
  match _h : readLineCapped max buf available with
  | (none, buf, available) => (none, buf, available)
  | (some .tooLong, buf, available) => (some .tooLong, buf, available)
  | (some .line, buf, available) =>
      if (trimAscii buf).isEmpty then recvLoop max [] available
      else (some (.frame (trimAscii buf)), buf, available)
termination_by available.length
decreasing_by exact readLineCapped_lt _h

/-! ## The transport and its caller -/

structure State where
  /-- What the peer sent and the reader has not taken yet. -/
  unread : Bytes
  /-- What the reader holds and `recv` has not consumed yet. -/
  available : Bytes
  buf : Bytes
  /-- A `recv` future waits in `fill_buf`. -/
  pending : Bool
  /-- What completed `recv` calls returned, in order. -/
  received : List Received

def State.init (stream : Bytes) : State := ⟨stream, [], [], false, []⟩

inductive Op
  /-- The caller calls `recv`. -/
  | recv
  /-- `fill_buf` of the pending future yields a chunk. -/
  | chunk (c : Bytes)
  /-- `fill_buf` of the pending future reports end of stream. -/
  | eof
  /-- The caller drops the pending future. -/
  | drop

/-- Run the pending future until it waits again or returns. -/
def resume (max : Nat) (st : State) : State :=
  let (r, buf, available) := recvLoop max st.buf st.available
  { st with buf, available, pending := r.isNone, received := st.received ++ r.toList }

/-- At end of stream a non-empty `buf` is a last line, which is a frame unless
blank; after a blank one `recv` clears `buf` and meets the end again. -/
def finish (st : State) : State :=
  if st.buf.isEmpty then { st with pending := false, received := st.received ++ [.eof] }
  else if (trimAscii st.buf).isEmpty then
    { st with buf := [], pending := false, received := st.received ++ [.eof] }
  else
    { st with pending := false, received := st.received ++ [.frame (trimAscii st.buf)] }

/-- Whether `recv` told the caller to stop. -/
def State.stopped (st : State) : Prop := ∃ r ∈ st.received, r = .eof ∨ r = .tooLong

inductive Step (max : Nat) : State → Op → State → Prop
  | recv {st} (hp : st.pending = false) (hs : ¬ st.stopped) :
      Step max st .recv (resume max { st with buf := [] })
  | chunk {st c rest} (hp : st.pending = true) (hc : c ≠ []) (hu : st.unread = c ++ rest) :
      Step max st (.chunk c) (resume max { st with available := c, unread := rest })
  | eof {st} (hp : st.pending = true) (hu : st.unread = []) : Step max st .eof (finish st)
  | drop {st} (hp : st.pending = true) : Step max st .drop { st with pending := false }

/-- What the caller has of a frame whose line goes through the codec. -/
def delivered {M : Type} (decode : Bytes → M) (st : State) : List M :=
  st.received.filterMap fun
    | .frame line => some (decode line)
    | _ => none

/-- The frames of a stream: its trimmed lines, blank ones skipped. -/
def framesOf (stream : Bytes) : List Bytes := frames newline isAsciiWhitespace stream

/-- A dropped future had read nothing but whitespace of its line. -/
def DropsBlank (st : State) : Op → Prop
  | .drop => ∀ b ∈ st.buf, isAsciiWhitespace b = true
  | _ => True

/-! ## One call of the reading loops -/

/-- What `readLineCapped` does to a stream `buf ++ available ++ rest` whose
lines fit: it either takes all there is, or cuts off exactly one line. -/
theorem readLineCapped_spec {max : Nat} {buf available rest : Bytes}
    (hbuf : newline ∉ buf) (hfit : Fits newline max (buf ++ (available ++ rest))) :
    (newline ∉ available ∧
      readLineCapped max buf available = (none, buf ++ available, [])) ∨
    (∃ l s, newline ∉ l ∧ available = l ++ newline :: s ∧
      readLineCapped max buf available = (some .line, buf ++ (l ++ [newline]), s)) := by
  unfold readLineCapped
  cases hidx : available.findIdx? (· = newline) with
  | none =>
      have hno : newline ∉ available := by
        intro hmem
        simpa using List.findIdx?_eq_none_iff.mp hidx newline hmem
      have hlen : buf.length + available.length ≤ max := by
        rw [← List.append_assoc] at hfit
        have := hfit.upTo (by simp [hbuf, hno])
        rwa [List.length_append] at this
      refine Or.inl ⟨hno, ?_⟩
      by_cases hnil : available = []
      · simp [hnil]
      · simp [hnil, Nat.not_lt.mpr hlen]
  | some i =>
      obtain ⟨hi, hat, hbefore⟩ := List.findIdx?_eq_some_iff_getElem.mp hidx
      have hat : available[i] = newline := by simpa using hat
      have hno : newline ∉ available.take i := by
        intro hmem
        obtain ⟨j, hj, hjeq⟩ := List.mem_take_iff_getElem.mp hmem
        exact hbefore j (by omega) (by simpa using hjeq)
      have hsplit : available = available.take i ++ newline :: available.drop (i + 1) := by
        rw [← hat, List.getElem_cons_drop, List.take_append_drop]
      refine Or.inr ⟨available.take i, available.drop (i + 1), hno, hsplit, ?_⟩
      have htake : available.take (i + 1) = available.take i ++ [newline] := by
        rw [← hat, List.take_append_getElem]
      have hlen : buf.length + (i + 1) ≤ max := by
        rw [hsplit, List.append_assoc, List.cons_append, ← List.append_assoc] at hfit
        have := (hfit.line (by simp [hbuf, hno])).1
        rw [List.length_append, List.length_take] at this
        omega
      have hne : available ≠ [] := List.ne_nil_of_length_pos (Nat.lt_of_le_of_lt i.zero_le hi)
      simp [hne, Nat.not_lt.mpr hlen, htake]

/-- The lines a result hands out. -/
def Received.lines : Received → List Bytes
  | frame line => [line]
  | _ => []

/-- What of the current line a future that still waits has in `buf`. -/
def held (r : Option Received) (buf : Bytes) : Bytes := if r.isNone then buf else []

/-- What a call of `recv` over the stream `buf ++ available ++ rest` may come
to: it waits with all it was given in `buf`, or it returns a frame; what it
returned and what is left are the frames there were. -/
structure RecvSpec (max : Nat) (rest stream : Bytes)
    (out : Option Received × Bytes × Bytes) : Prop where
  frame : ∀ x ∈ out.1, ∃ line, x = .frame line
  waiting : out.1 = none → out.2.2 = [] ∧ newline ∉ out.2.1
  fits : Fits newline max (held out.1 out.2.1 ++ (out.2.2 ++ rest))
  frames_eq : out.1.toList.flatMap Received.lines ++
    framesOf (held out.1 out.2.1 ++ (out.2.2 ++ rest)) = framesOf stream

theorem recvLoop_wait {max : Nat} {buf available buf' available' : Bytes}
    (h : readLineCapped max buf available = (none, buf', available')) :
    recvLoop max buf available = (none, buf', available') := by
  rw [recvLoop]
  split <;> rename_i heq <;> rw [h] at heq <;> simp_all

theorem recvLoop_line {max : Nat} {buf available buf' available' : Bytes}
    (h : readLineCapped max buf available = (some .line, buf', available')) :
    recvLoop max buf available =
      if (trimAscii buf').isEmpty then recvLoop max [] available'
      else (some (.frame (trimAscii buf')), buf', available') := by
  rw [recvLoop]
  split <;> rename_i heq <;> rw [h] at heq <;> simp_all

theorem frameOf_trimAscii (line : Bytes) : frameOf isAsciiWhitespace line =
    if (trimAscii line).isEmpty then [] else [trimAscii line] := rfl

/-- **One call of `recv`** neither loses nor invents a frame. -/
theorem recvLoop_spec {max : Nat} {buf available rest : Bytes} (hbuf : newline ∉ buf)
    (hfit : Fits newline max (buf ++ (available ++ rest))) :
    RecvSpec max rest (buf ++ (available ++ rest)) (recvLoop max buf available) := by
  induction hn : available.length using Nat.strongRecOn generalizing buf available with
  | ind n ih =>
      subst hn
      rcases readLineCapped_spec hbuf hfit with ⟨hno, hread⟩ | ⟨l, s, hl, hav, hread⟩
      · -- everything is taken and the future waits
        rw [recvLoop_wait hread]
        have hrest : held none (buf ++ available) ++ ([] ++ rest) =
            buf ++ (available ++ rest) := by
          simp [held]
        refine ⟨by simp, fun _ => ⟨rfl, by simp [hbuf, hno]⟩, ?_, ?_⟩
        · rw [hrest]
          exact hfit
        · rw [hrest]
          rfl
      · -- one line `buf ++ l` is cut off
        have hline : newline ∉ buf ++ l := by simp [hbuf, hl]
        have hstream : buf ++ (available ++ rest) =
            (buf ++ l) ++ newline :: (s ++ rest) := by
          simp [hav]
        have hfit' : Fits newline max (s ++ rest) := by
          rw [hstream] at hfit
          exact (hfit.line hline).2
        have hframes : framesOf (buf ++ (available ++ rest)) =
            frameOf isAsciiWhitespace (buf ++ (l ++ [newline])) ++ framesOf (s ++ rest) := by
          rw [hstream, framesOf, frames_line hline, List.append_assoc]
          rfl
        rw [recvLoop_line hread]
        split
        · -- a blank line is skipped
          rename_i hblank
          have hlt : s.length < available.length := by
            rw [hav, List.length_append, List.length_cons]
            omega
          have hspec : RecvSpec max rest ([] ++ (s ++ rest)) (recvLoop max [] s) :=
            ih s.length hlt (by simp) hfit' rfl
          refine ⟨hspec.frame, hspec.waiting, hspec.fits, ?_⟩
          rw [hspec.frames_eq, hframes, frameOf_trimAscii, if_pos hblank]
          rfl
        · rename_i hblank
          refine ⟨by simp, by simp, hfit', ?_⟩
          rw [hframes, frameOf_trimAscii, if_neg hblank]
          rfl

/-! ## Runs -/

/-- What is left of the stream for the pending and the later calls. -/
def State.rest (st : State) : Bytes :=
  (if st.pending then st.buf else []) ++ (st.available ++ st.unread)

/-- The frames a run ends up with unless it loses some: those delivered, then
those of the rest. -/
def State.yield (st : State) : List Bytes :=
  st.received.flatMap Received.lines ++ framesOf st.rest

structure Good (max : Nat) (st : State) : Prop where
  fits : Fits newline max st.rest
  waiting : st.pending = true → st.available = [] ∧ newline ∉ st.buf ∧ ¬ st.stopped
  /-- The caller is only told to stop when nothing is left. -/
  ended : st.stopped → st.rest = []

theorem good_init {max : Nat} {stream : Bytes} (h : Fits newline max stream) :
    Good max (.init stream) where
  fits := by simpa [State.init, State.rest] using h
  waiting := by simp [State.init]
  ended := by simp [State.init, State.stopped]

theorem stopped_append_frame {st : State} {line : Bytes} :
    (∃ r ∈ st.received ++ [Received.frame line], r = .eof ∨ r = .tooLong) ↔ st.stopped := by
  simp [State.stopped]

theorem resume_good {max : Nat} (st : State) (hbuf : newline ∉ st.buf)
    (hfit : Fits newline max (st.buf ++ (st.available ++ st.unread)))
    (hlive : ¬ st.stopped) : Good max (resume max st) := by
  have hspec := recvLoop_spec hbuf hfit
  rcases hout : recvLoop max st.buf st.available with ⟨r, buf', available'⟩
  rw [hout] at hspec
  have hstopped : ¬ (resume max st).stopped := by
    simp only [resume, hout]
    cases r with
    | none => simpa [State.stopped] using hlive
    | some x =>
        obtain ⟨line, rfl⟩ := hspec.frame x rfl
        exact fun h => hlive (stopped_append_frame.mp h)
  refine ⟨?_, ?_, fun h => absurd h hstopped⟩
  · have := hspec.fits
    simpa only [resume, hout, State.rest, held] using this
  · intro hp
    simp only [resume, hout, Option.isNone_iff_eq_none] at hp
    have hwait := hspec.waiting hp
    exact ⟨by simpa only [resume, hout] using hwait.1,
      by simpa only [resume, hout] using hwait.2, hstopped⟩

theorem resume_yield {max : Nat} (st : State) (hbuf : newline ∉ st.buf)
    (hfit : Fits newline max (st.buf ++ (st.available ++ st.unread))) :
    (resume max st).yield = st.received.flatMap Received.lines ++
      framesOf (st.buf ++ (st.available ++ st.unread)) := by
  have hspec := recvLoop_spec hbuf hfit
  rcases hout : recvLoop max st.buf st.available with ⟨r, buf', available'⟩
  rw [hout] at hspec
  rw [← hspec.frames_eq, ← List.append_assoc, ← List.flatMap_append]
  simp only [resume, hout, State.yield, State.rest, held]

/-- At end of stream the rest is the line in `buf`, unless that is blank. -/
theorem finish_good {max : Nat} {st : State} (hg : Good max st) (hp : st.pending = true)
    (hu : st.unread = []) : Good max (finish st) ∧ (finish st).yield = st.yield := by
  obtain ⟨hav, hnl, hlive⟩ := hg.waiting hp
  have hrest : st.rest = st.buf := by simp [State.rest, hp, hav, hu]
  have hyield : st.yield = st.received.flatMap Received.lines ++
      frameOf isAsciiWhitespace st.buf := by
    rw [State.yield, hrest, framesOf, frames_rest hnl]
  have hempty : Fits newline max [] := by simp [Fits, splitInclusive]
  rw [hyield, frameOf_trimAscii]
  unfold finish
  split
  · rename_i hb
    rw [List.isEmpty_iff] at hb
    refine ⟨⟨?_, by simp, ?_⟩, ?_⟩ <;>
      simp [State.rest, State.yield, hav, hu, hb, hempty, trimAscii, trim, framesOf,
        Received.lines]
  · split
    · rename_i hblank
      refine ⟨⟨?_, by simp, ?_⟩, ?_⟩ <;>
        simp [State.rest, State.yield, hav, hu, hempty, framesOf, Received.lines]
    · rename_i hframe
      refine ⟨⟨?_, by simp, ?_⟩, ?_⟩ <;>
        simp [State.rest, State.yield, hav, hu, hempty, framesOf, Received.lines]

theorem good_step {max : Nat} {st st' : State} {op : Op} (h : Step max st op st')
    (hg : Good max st) : Good max st' := by
  cases h with
  | recv hp hs =>
      have hfit := hg.fits
      rw [State.rest, hp] at hfit
      exact resume_good { st with buf := [] } (by simp) hfit hs
  | @chunk c rest hp hc hu =>
      obtain ⟨hav, hnl, hlive⟩ := hg.waiting hp
      have hfit := hg.fits
      rw [State.rest, hp, hav, hu] at hfit
      exact resume_good { st with available := c, unread := rest } hnl hfit hlive
  | eof hp hu => exact (finish_good hg hp hu).1
  | drop hp =>
      obtain ⟨hav, hnl, hlive⟩ := hg.waiting hp
      have hfit := hg.fits
      rw [State.rest, if_pos hp] at hfit
      exact ⟨hfit.of_append hnl, by simp, fun hs => absurd hs hlive⟩

/-- Only a drop can change what the run will have delivered. -/
theorem yield_step {max : Nat} {st st' : State} {op : Op} (h : Step max st op st')
    (hg : Good max st) (hop : DropsBlank st op) : st'.yield = st.yield := by
  cases h with
  | recv hp hs =>
      have hfit := hg.fits
      rw [State.rest, hp] at hfit
      rw [resume_yield { st with buf := [] } (by simp) hfit]
      simp [State.yield, State.rest, hp]
  | @chunk c rest hp hc hu =>
      obtain ⟨hav, hnl, hlive⟩ := hg.waiting hp
      have hfit := hg.fits
      rw [State.rest, hp, hav, hu] at hfit
      rw [resume_yield { st with available := c, unread := rest } hnl hfit]
      simp [State.yield, State.rest, hp, hav, hu]
  | eof hp hu => exact (finish_good hg hp hu).2
  | drop hp =>
      obtain ⟨hav, hnl, hlive⟩ := hg.waiting hp
      simp only [State.yield, State.rest, hp, if_true, framesOf]
      rw [frames_append_of_blank hnl hop]
      rfl

/-- Dropping a future that holds part of a line loses what is not blank. -/
theorem yield_drop_lt {max : Nat} {st st' : State} {op : Op} (h : Step max st op st')
    (hop : ¬ DropsBlank st op) :
    nonblank isAsciiWhitespace st'.yield.flatten <
      nonblank isAsciiWhitespace st.yield.flatten := by
  cases h with
  | recv hp hs => exact absurd trivial hop
  | chunk hp hc hu => exact absurd trivial hop
  | eof hp hu => exact absurd trivial hop
  | drop hp =>
      have hlost : 0 < nonblank isAsciiWhitespace st.buf := by
        rw [Nat.pos_iff_ne_zero]
        exact fun h0 => hop ((nonblank_eq_zero_iff _ _).mp h0)
      simp only [State.yield, State.rest, hp, if_true, framesOf, List.flatten_append,
        nonblank_append, nonblank_frames]
      have hnil : nonblank isAsciiWhitespace (if false = true then st.buf else []) = 0 := rfl
      omega

/-! ## Cancel safety -/

theorem delivered_eq {M : Type} (decode : Bytes → M) (st : State) :
    delivered decode st = (st.received.flatMap Received.lines).map decode := by
  rw [delivered, List.map_flatMap, List.filterMap_eq_flatMap_toList]
  congr 1
  funext r
  cases r <;> rfl

/-- **Cancel safety of `recv`**: along a run over a stream whose lines fit the
cap, what was delivered so far and what the rest of the stream still holds are,
for every codec, the decoded frames of the stream exactly when every future
that was dropped had read nothing but whitespace of its line.  At end of stream
nothing is left, so then the frames delivered are all there were. -/
theorem delivered_eq_frames_iff {max : Nat} {stream : Bytes}
    (hfit : Fits newline max stream) {tr : List (Op × State)}
    (hrun : Run (Step max) (.init stream) tr) :
    let st := final (.init stream) tr
    ((∀ (M : Type) (decode : Bytes → M),
        delivered decode st ++ (framesOf st.rest).map decode =
          (framesOf stream).map decode) ↔
      ∀ x ∈ steps (.init stream) tr, DropsBlank x.1 x.2.1) ∧
    (.eof ∈ st.received → st.rest = []) := by
  have hinit := good_init hfit
  have hgood : Good max (final (.init stream) tr) :=
    hrun.invariant hinit (fun _ _ _ h => good_step h) _ (final_mem_states _ _)
  refine ⟨?_, fun heof => hgood.ended ⟨_, heof, Or.inl rfl⟩⟩
  have hlossless : (final (.init stream) tr).yield = (State.init stream).yield ↔
      ∀ x ∈ steps (.init stream) tr, DropsBlank x.1 x.2.1 :=
    hrun.final_eq_iff (I := Good max) (G := DropsBlank)
      (w := fun ls => nonblank isAsciiWhitespace ls.flatten) hinit
      (fun _ _ _ h => good_step h) (fun _ _ _ h => yield_step h)
      (fun _ _ _ h _ => yield_drop_lt h)
  have hstart : (State.init stream).yield = framesOf stream := by
    simp [State.init, State.yield, State.rest]
  rw [← hlossless, hstart]
  constructor
  · intro h
    have := h Bytes id
    rwa [delivered_eq, List.map_id, List.map_id, List.map_id] at this
  · intro h M decode
    rw [delivered_eq, ← List.map_append, ← h]
    rfl

/-! ## A frame in two chunks -/

def ascii (s : String) : Bytes := s.toList.map fun c => UInt8.ofNat c.toNat

def firstHalf : Bytes := ascii "\x7b\"id\":1,"

def secondHalf : Bytes := ascii "\"method\":\"ping\"\x7d"

def ping : Bytes := firstHalf ++ secondHalf ++ [newline]

theorem fits_ping : Fits newline 64 ping := by
  unfold Fits
  decide

theorem recvLoop_secondHalf (buf : Bytes) (h : buf = [] ∨ buf = firstHalf) :
    recvLoop 64 buf (secondHalf ++ [newline]) =
      (some (.frame (buf ++ secondHalf)), buf ++ (secondHalf ++ [newline]), []) := by
  have hread : readLineCapped 64 buf (secondHalf ++ [newline]) =
      (some .line, buf ++ (secondHalf ++ [newline]), []) := by
    rcases h with rfl | rfl <;> decide
  rw [recvLoop_line hread]
  rcases h with rfl | rfl <;> decide

/-- The caller waits, before or in the line, with `buf` read so far. -/
def waiting (buf : Bytes) : State := ⟨secondHalf ++ [newline], [], buf, true, []⟩

def returned (buf : Bytes) : State :=
  ⟨[], [], buf ++ (secondHalf ++ [newline]), false, [.frame (buf ++ secondHalf)]⟩

theorem step_first : Step 64 ⟨ping, [], [], true, []⟩ (.chunk firstHalf) (waiting firstHalf) := by
  have h := @Step.chunk 64 ⟨ping, [], [], true, []⟩ firstHalf (secondHalf ++ [newline]) rfl
    (by decide) (by simp [ping])
  have hloop : recvLoop 64 [] firstHalf = (none, firstHalf, []) := recvLoop_wait (by decide)
  simpa [resume, hloop, waiting] using h

theorem step_second (buf : Bytes) (h : buf = [] ∨ buf = firstHalf) :
    Step 64 (waiting buf) (.chunk (secondHalf ++ [newline])) (returned buf) := by
  have h' := @Step.chunk 64 (waiting buf) (secondHalf ++ [newline]) [] rfl (by decide)
    (by simp [waiting])
  simpa [resume, waiting, recvLoop_secondHalf buf h, returned] using h'

theorem step_recv (unread buf : Bytes) (received : List Received)
    (h : ∀ r ∈ received, ¬ (r = .eof ∨ r = .tooLong)) :
    Step 64 ⟨unread, [], buf, false, received⟩ .recv ⟨unread, [], [], true, received⟩ := by
  have h' := @Step.recv 64 ⟨unread, [], buf, false, received⟩ rfl
    (fun ⟨r, hr, hstop⟩ => h r hr hstop)
  have hloop : recvLoop 64 [] [] = (none, [], []) := recvLoop_wait rfl
  simpa [resume, hloop] using h'

/-- The frame arrives while one future waits; a later one is dropped between
frames. -/
def keptRun : List (Op × State) :=
  [(.recv, ⟨ping, [], [], true, []⟩), (.chunk firstHalf, waiting firstHalf),
    (.chunk (secondHalf ++ [newline]), returned firstHalf),
    (.recv, { returned firstHalf with buf := [], pending := true }),
    (.drop, { returned firstHalf with buf := [] })]

theorem run_kept : Run (Step 64) (.init ping) keptRun := by
  simp only [keptRun, run_cons, run_nil, and_true]
  exact ⟨step_recv ping [] [] (by simp), step_first, step_second firstHalf (Or.inr rfl),
    step_recv [] _ _ (by simp), @Step.drop 64 ⟨[], [], [], true, _⟩ rfl⟩

theorem delivered_kept :
    delivered id (final (.init ping) keptRun) ++
      (framesOf (final (.init ping) keptRun).rest).map id = (framesOf ping).map id := by
  refine (delivered_eq_frames_iff fits_ping run_kept).1.mpr ?_ Bytes id
  simp [keptRun, DropsBlank]

/-- The future is dropped between the two chunks. -/
def lostRun : List (Op × State) :=
  [(.recv, ⟨ping, [], [], true, []⟩), (.chunk firstHalf, waiting firstHalf),
    (.drop, { waiting firstHalf with pending := false }), (.recv, waiting []),
    (.chunk (secondHalf ++ [newline]), returned []),
    (.recv, { returned [] with buf := [], pending := true }),
    (.eof, { returned [] with buf := [], received := [.frame secondHalf, .eof] })]

theorem run_lost : Run (Step 64) (.init ping) lostRun := by
  simp only [lostRun, run_cons, run_nil, and_true]
  exact ⟨step_recv ping [] [] (by simp), step_first, .drop rfl,
    step_recv (secondHalf ++ [newline]) firstHalf [] (by simp), step_second [] (Or.inl rfl),
    step_recv [] _ _ (by simp), @Step.eof 64 ⟨[], [], [], true, _⟩ rfl rfl⟩

/-- The second half of the line goes to the codec as if it were a frame. -/
theorem dropped_recv_truncates :
    ∃ stream : Bytes, Fits newline 64 stream ∧ ∃ tr, Run (Step 64) (.init stream) tr ∧
      .eof ∈ (final (.init stream) tr).received ∧
      delivered id (final (.init stream) tr) = [secondHalf] ∧
      framesOf stream = [firstHalf ++ secondHalf] :=
  ⟨ping, fits_ping, lostRun, run_lost, by decide, by decide, by decide⟩

end TurboMcp.Transport.Line
