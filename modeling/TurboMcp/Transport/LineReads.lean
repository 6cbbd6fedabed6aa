import TurboMcp.Transport.Line

/-!
# Bounded line reading

`read_line_capped` over a reader whose bytes come in chunks, called again and again
with a cleared buffer, up to the end of the stream or the first line that is too
long, where the transport gives up.  What the calls come to is a function of the
bytes: where they are cut does not show.
-/

namespace TurboMcp.Transport.Line

open TurboMcp.Lib

/-! ## Calls -/

/-- What a call reports, with what it leaves in `buf`. -/
inductive Reading
  | line (buf : Bytes)
  | eof
  | tooLong
  deriving DecidableEq

structure LineCall where
  reading : Reading
  /-- What `buf` held, one iteration after the other. -/
  bufs : List Bytes
  /-- The chunks the reader still has. -/
  rest : List Bytes

/-- What the reader has after a part of its chunk was consumed. -/
def afterConsume (available : Bytes) (chunks : List Bytes) : List Bytes :=
  if available.isEmpty then chunks else available :: chunks

/-- What a call reports where `fill_buf` yields nothing. -/
def atEnd (buf : Bytes) : Reading := if buf.isEmpty then .eof else .line buf

/-- `read_line_capped`: one chunk of the reader an iteration. -/
def readLine (max : Nat) (buf : Bytes) : List Bytes → LineCall
  | [] => ⟨atEnd buf, [buf], []⟩
  | chunk :: chunks =>
      if chunk.isEmpty then ⟨atEnd buf, [buf], chunk :: chunks⟩
      else
        match readLineCapped max buf chunk with
        | (some .tooLong, buf', _) => ⟨.tooLong, [buf, buf'], chunk :: chunks⟩
        | (some .line, buf', available) =>
            ⟨.line buf', [buf, buf'], afterConsume available chunks⟩
        | (none, buf', _) =>
            let call := readLine max buf' chunks
            { call with bufs := buf :: call.bufs }

@[simp] theorem flatten_afterConsume (available : Bytes) (chunks : List Bytes) :
    (afterConsume available chunks).flatten = available ++ chunks.flatten := by
  unfold afterConsume
  split
  · rename_i hempty
    rw [List.isEmpty_iff] at hempty
    rw [hempty, List.nil_append]
  · rfl

/-! ### One iteration -/

/-- What an iteration over a chunk that is not empty comes to: all of it fits in the
buffer, or a line ends in it and fits, or the cap is passed. -/
inductive Iteration (max : Nat) (buf chunk : Bytes) :
    Option LineRead × Bytes × Bytes → Prop
  | more (hno : newline ∉ chunk) (hfit : (buf ++ chunk).length ≤ max) :
      Iteration max buf chunk (none, buf ++ chunk, [])
  | line (l available : Bytes) (hno : newline ∉ l) (hchunk : chunk = l ++ newline :: available)
      (hfit : (buf ++ (l ++ [newline])).length ≤ max) :
      Iteration max buf chunk (some .line, buf ++ (l ++ [newline]), available)
  | unended (hno : newline ∉ chunk) (hlong : max < (buf ++ chunk).length) :
      Iteration max buf chunk (some .tooLong, buf, chunk)
  | long (l available : Bytes) (hno : newline ∉ l) (hchunk : chunk = l ++ newline :: available)
      (hlong : max < (buf ++ (l ++ [newline])).length) :
      Iteration max buf chunk (some .tooLong, buf, chunk)

/-- The first line of a chunk, as `position` finds its end. -/
theorem split_of_findIdx? {chunk : Bytes} {i : Nat}
    (h : chunk.findIdx? (· = newline) = some i) :
    newline ∉ chunk.take i ∧ chunk = chunk.take i ++ newline :: chunk.drop (i + 1) ∧
      chunk.take (i + 1) = chunk.take i ++ [newline] ∧ (chunk.take i).length = i := by
  obtain ⟨hi, hat, hbefore⟩ := List.findIdx?_eq_some_iff_getElem.mp h
  have hat : chunk[i] = newline := by simpa using hat
  refine ⟨?_, ?_, ?_, ?_⟩
  · intro hmem
    obtain ⟨j, hj, hjeq⟩ := List.mem_take_iff_getElem.mp hmem
    exact hbefore j (by omega) (by simpa using hjeq)
  · rw [← hat, List.getElem_cons_drop, List.take_append_drop]
  · rw [← hat, List.take_append_getElem]
  · rw [List.length_take]
    omega

theorem iteration_readLineCapped (max : Nat) (buf : Bytes) {chunk : Bytes} (h : chunk ≠ []) :
    Iteration max buf chunk (readLineCapped max buf chunk) := by
  have hempty : chunk.isEmpty = false := by
    rw [Bool.eq_false_iff, Ne, List.isEmpty_iff]
    exact h
  unfold readLineCapped
  rw [hempty]
  cases hidx : chunk.findIdx? (· = newline) with
  | none =>
      have hno : newline ∉ chunk := by
        intro hmem
        simpa using List.findIdx?_eq_none_iff.mp hidx newline hmem
      by_cases hlong : buf.length + chunk.length > max
      · simpa [hlong] using Iteration.unended hno (by rwa [List.length_append])
      · simpa [hlong] using Iteration.more hno (by rw [List.length_append]; omega)
  | some i =>
      obtain ⟨hno, hchunk, htake, hlen⟩ := split_of_findIdx? hidx
      have hline : (buf ++ (chunk.take i ++ [newline])).length = buf.length + (i + 1) := by
        rw [List.length_append, List.length_append, hlen]
        rfl
      by_cases hlong : buf.length + (i + 1) > max
      · have hit : Iteration max buf chunk (some .tooLong, buf, chunk) :=
          .long _ _ hno hchunk (by rwa [hline])
        simpa [hlong] using hit
      · have hit : Iteration max buf chunk
            (some .line, buf ++ (chunk.take i ++ [newline]), chunk.drop (i + 1)) :=
          .line _ _ hno hchunk (by rw [hline]; omega)
        simpa [hlong, htake] using hit

/-! ### One call -/

/-- What a call over the bytes `bytes` of its line and of what follows comes to. -/
structure CallSpec (max : Nat) (bytes : Bytes) (call : LineCall) : Prop where
  /-- At the end of the stream. -/
  ended : bytes = [] → call.reading = .eof
  /-- The first line, where it fits; the rest is for the next call. -/
  fits : ∀ l ls, splitInclusive newline bytes = l :: ls → l.length ≤ max →
    call.reading = .line l ∧ l ++ call.rest.flatten = bytes ∧
      splitInclusive newline call.rest.flatten = ls ∧ ∀ c ∈ call.rest, c ≠ []
  /-- The first line, where it does not. -/
  long : ∀ l ls, splitInclusive newline bytes = l :: ls → max < l.length →
    call.reading = .tooLong
  bounded : ∀ b ∈ call.bufs, b.length ≤ max

/-- A stream starts with a line that is at least as long as what was read of it. -/
theorem length_le_of_splitInclusive {p s l : Bytes} {ls : List Bytes} (hp : newline ∉ p)
    (h : splitInclusive newline (p ++ s) = l :: ls) : p.length ≤ l.length := by
  by_cases hs : s = []
  · subst hs
    rw [List.append_nil] at h
    by_cases hnil : p = []
    · simp [hnil]
    · rw [splitInclusive_rest hp hnil] at h
      obtain ⟨rfl, -⟩ := List.cons.inj h
      exact Nat.le_refl _
  · obtain ⟨l', ls', -, hsplit⟩ := splitInclusive_append hp hs
    rw [hsplit] at h
    obtain ⟨rfl, -⟩ := List.cons.inj h
    rw [List.length_append]
    omega

theorem callSpec_end {max : Nat} {buf : Bytes} (hbuf : newline ∉ buf) (hlen : buf.length ≤ max) :
    CallSpec max buf ⟨atEnd buf, [buf], []⟩ := by
  refine ⟨?_, ?_, ?_, ?_⟩
  · rintro rfl
    rfl
  · intro l ls hsplit hl
    have hne : buf ≠ [] := by
      rintro rfl
      cases hsplit
    rw [splitInclusive_rest hbuf hne] at hsplit
    obtain ⟨rfl, rfl⟩ := List.cons.inj hsplit
    refine ⟨?_, by simp, rfl, by simp⟩
    show atEnd buf = .line buf
    rw [atEnd, if_neg (by rwa [List.isEmpty_iff])]
  · intro l ls hsplit hl
    have hne : buf ≠ [] := by
      rintro rfl
      cases hsplit
    rw [splitInclusive_rest hbuf hne] at hsplit
    obtain ⟨rfl, rfl⟩ := List.cons.inj hsplit
    omega
  · intro b hb
    rw [List.mem_singleton.mp hb]
    exact hlen

/-- **One call**, by induction on the chunks; `buf` is what of the line was read in the
earlier ones. -/
theorem readLine_spec {max : Nat} {buf : Bytes} {chunks : List Bytes} (hbuf : newline ∉ buf)
    (hlen : buf.length ≤ max) (hchunks : ∀ c ∈ chunks, c ≠ []) :
    CallSpec max (buf ++ chunks.flatten) (readLine max buf chunks) := by
  induction chunks generalizing buf with
  | nil =>
      rw [List.flatten_nil, List.append_nil]
      exact callSpec_end hbuf hlen
  | cons chunk chunks ih =>
      have hne : chunk ≠ [] := hchunks chunk List.mem_cons_self
      have hrest : ∀ c ∈ chunks, c ≠ [] := fun c hc => hchunks c (List.mem_cons_of_mem _ hc)
      have hempty : ¬ chunk.isEmpty = true := by rwa [List.isEmpty_iff]
      have hiter := iteration_readLineCapped max buf hne
      rw [readLine, if_neg hempty, List.flatten_cons]
      generalize readLineCapped max buf chunk = out at hiter
      cases hiter with
      | more hno hfit =>
          have hbuf' : newline ∉ buf ++ chunk := by simp [hbuf, hno]
          have hspec := ih hbuf' hfit hrest
          rw [List.append_assoc] at hspec
          refine ⟨hspec.ended, hspec.fits, hspec.long, ?_⟩
          intro b hb
          rcases List.mem_cons.mp hb with rfl | hb
          · exact hlen
          · exact hspec.bounded b hb
      | line l available hno hchunk hfit =>
          have hline : newline ∉ buf ++ l := by simp [hbuf, hno]
          have hstream : buf ++ (chunk ++ chunks.flatten) =
              (buf ++ l) ++ newline :: (available ++ chunks.flatten) := by
            rw [hchunk]
            simp
          have hsplit : splitInclusive newline (buf ++ (chunk ++ chunks.flatten)) =
              (buf ++ (l ++ [newline])) :: splitInclusive newline (available ++ chunks.flatten) := by
            rw [hstream, splitInclusive_line hline, List.append_assoc]
          refine ⟨?_, ?_, ?_, ?_⟩
          · intro hnil
            rw [hnil] at hsplit
            cases hsplit
          · intro l' ls hsplit' _
            rw [hsplit] at hsplit'
            obtain ⟨rfl, rfl⟩ := List.cons.inj hsplit'
            refine ⟨rfl, ?_, ?_, ?_⟩
            · show buf ++ (l ++ [newline]) ++ (afterConsume available chunks).flatten = _
              rw [flatten_afterConsume, hchunk]
              simp
            · show splitInclusive newline (afterConsume available chunks).flatten = _
              rw [flatten_afterConsume]
            · intro c hc
              show c ≠ []
              change c ∈ afterConsume available chunks at hc
              unfold afterConsume at hc
              split at hc
              · exact hrest c hc
              · rename_i havailable
                rcases List.mem_cons.mp hc with rfl | hc
                · rwa [List.isEmpty_iff] at havailable
                · exact hrest c hc
          · intro l' ls hsplit' hl
            rw [hsplit] at hsplit'
            obtain ⟨rfl, rfl⟩ := List.cons.inj hsplit'
            omega
          · intro b hb
            rcases List.mem_cons.mp hb with rfl | hb
            · exact hlen
            · rw [List.mem_singleton.mp hb]
              exact hfit
      | unended hno hlong =>
          refine ⟨?_, ?_, fun _ _ _ _ => rfl, ?_⟩
          · intro hnil
            have hchunk : chunk = [] := by simp_all
            exact absurd hchunk hne
          · intro l ls hsplit hl
            rw [← List.append_assoc] at hsplit
            have hle := length_le_of_splitInclusive (by simp [hbuf, hno]) hsplit
            omega
          · intro b hb
            have hb : b = buf := by simpa using hb
            rw [hb]
            exact hlen
      | long l available hno hchunk hlong =>
          have hline : newline ∉ buf ++ l := by simp [hbuf, hno]
          have hsplit : splitInclusive newline (buf ++ (chunk ++ chunks.flatten)) =
              (buf ++ (l ++ [newline])) :: splitInclusive newline (available ++ chunks.flatten) := by
            have hstream : buf ++ (chunk ++ chunks.flatten) =
                (buf ++ l) ++ newline :: (available ++ chunks.flatten) := by
              rw [hchunk]
              simp
            rw [hstream, splitInclusive_line hline, List.append_assoc]
          refine ⟨?_, ?_, fun _ _ _ _ => rfl, ?_⟩
          · intro hnil
            rw [hnil] at hsplit
            cases hsplit
          · intro l' ls hsplit' hl
            rw [hsplit] at hsplit'
            obtain ⟨rfl, rfl⟩ := List.cons.inj hsplit'
            omega
          · intro b hb
            have hb : b = buf := by simpa using hb
            rw [hb]
            exact hlen

/-! ## Call after call -/

theorem line_of_atEnd {buf l : Bytes} (h : atEnd buf = .line l) : buf = l ∧ l ≠ [] := by
  unfold atEnd at h
  split at h
  · cases h
  · rename_i hne
    cases h
    exact ⟨rfl, by rwa [List.isEmpty_iff] at hne⟩

/-- A line is read off the chunks. -/
theorem length_readLine {max : Nat} {buf : Bytes} {chunks : List Bytes} {l : Bytes}
    (h : (readLine max buf chunks).reading = .line l) :
    l ≠ [] ∧ l.length + (readLine max buf chunks).rest.flatten.length =
      buf.length + chunks.flatten.length := by
  induction chunks generalizing buf with
  | nil =>
      obtain ⟨rfl, hne⟩ := line_of_atEnd h
      exact ⟨hne, rfl⟩
  | cons chunk chunks ih =>
      rw [readLine] at h ⊢
      split at h
      · rename_i hempty
        obtain ⟨rfl, hne⟩ := line_of_atEnd h
        rw [if_pos hempty]
        exact ⟨hne, rfl⟩
      · rename_i hempty
        rw [if_neg hempty]
        have hne : chunk ≠ [] := by rwa [List.isEmpty_iff] at hempty
        have hiter := iteration_readLineCapped max buf hne
        generalize readLineCapped max buf chunk = out at h hiter ⊢
        cases hiter with
        | more hno hfit =>
            obtain ⟨hne, hlength⟩ := ih h
            refine ⟨hne, ?_⟩
            show l.length + (readLine max (buf ++ chunk) chunks).rest.flatten.length = _
            rw [hlength, List.flatten_cons, List.length_append, List.length_append]
            omega
        | line l' available hno hchunk hfit =>
            obtain rfl : buf ++ (l' ++ [newline]) = l := by injection h
            refine ⟨by simp, ?_⟩
            show _ + (afterConsume available chunks).flatten.length = _
            rw [flatten_afterConsume, hchunk]
            simp only [List.flatten_cons, List.length_append, List.length_cons, List.length_nil]
            omega
        | unended hno hlong => cases h
        | long l' available hno hchunk hlong => cases h

theorem readLine_lt {max : Nat} {chunks : List Bytes} {l : Bytes}
    (h : (readLine max [] chunks).reading = .line l) :
    (readLine max [] chunks).rest.flatten.length < chunks.flatten.length := by
  obtain ⟨hne, hlength⟩ := length_readLine h
  have hpos := List.length_pos_iff.mpr hne
  rw [List.length_nil] at hlength
  omega

/-- The calls up to the end of the stream or a line that is too long. -/
def readLines (max : Nat) (chunks : List Bytes) : List LineCall :=
  let call := readLine max [] chunks
  match _h : call.reading with
  | .line _ => call :: readLines max call.rest
  | .eof | .tooLong => [call]
termination_by chunks.flatten.length
decreasing_by exact readLine_lt _h

/-- What reading lines comes to: each line that fits, up to the first that does not, or
else the end. -/
def readings (max : Nat) : List Bytes → List Reading
  | [] => [.eof]
  | l :: ls => if l.length ≤ max then .line l :: readings max ls else [.tooLong]

theorem readLines_of_line {max : Nat} {chunks : List Bytes} {l : Bytes}
    (h : (readLine max [] chunks).reading = .line l) :
    readLines max chunks =
      readLine max [] chunks :: readLines max (readLine max [] chunks).rest := by
  rw [readLines]
  split
  · rfl
  · rename_i hend
    rw [h] at hend
    cases hend
  · rename_i hend
    rw [h] at hend
    cases hend

theorem readLines_of_end {max : Nat} {chunks : List Bytes}
    (h : ∀ l, (readLine max [] chunks).reading ≠ .line l) :
    readLines max chunks = [readLine max [] chunks] := by
  rw [readLines]
  split
  · rename_i l hline
    exact absurd hline (h l)
  · rfl
  · rfl

/-- **Reading depends on the bytes alone**: however a stream is cut into chunks, the
calls yield each line, its newline with it, up to the first that is longer than `max`,
or the end; and the buffer never holds more than `max` bytes. -/
theorem readLines_eq_readings (max : Nat) {chunks : List Bytes} (h : ∀ c ∈ chunks, c ≠ []) :
    (readLines max chunks).map LineCall.reading =
        readings max (splitInclusive newline chunks.flatten) ∧
      ∀ call ∈ readLines max chunks, ∀ b ∈ call.bufs, b.length ≤ max := by
  induction hn : chunks.flatten.length using Nat.strongRecOn generalizing chunks with
  | ind n ih =>
      subst hn
      have hbuf : newline ∉ ([] : Bytes) := List.not_mem_nil
      have hspec := readLine_spec hbuf (Nat.zero_le max) h
      rw [List.nil_append] at hspec
      have hlast : ∀ r, (readLine max [] chunks).reading = r → (∀ l, r ≠ .line l) →
          (readLines max chunks).map LineCall.reading = [r] ∧
            ∀ call ∈ readLines max chunks, ∀ b ∈ call.bufs, b.length ≤ max := by
        intro r hr hend
        rw [readLines_of_end fun l hl => hend l (hr ▸ hl)]
        refine ⟨by rw [List.map_singleton, hr], ?_⟩
        intro call hcall
        rw [List.mem_singleton.mp hcall]
        exact hspec.bounded
      cases hsplit : splitInclusive newline chunks.flatten with
      | nil =>
          have hnil : chunks.flatten = [] := by
            by_contra hne
            exact splitInclusive_ne_nil newline hne hsplit
          exact hlast .eof (hspec.ended hnil) nofun
      | cons l ls =>
          rw [readings]
          split
          · rename_i hl
            obtain ⟨hreading, -, hls, hrest⟩ := hspec.fits l ls hsplit hl
            obtain ⟨hreadings, hbufs⟩ := ih _ (readLine_lt hreading) hrest rfl
            rw [readLines_of_line hreading]
            refine ⟨?_, ?_⟩
            · rw [List.map_cons, hreading, hreadings, hls]
            · intro call hcall
              rcases List.mem_cons.mp hcall with rfl | hcall
              · exact hspec.bounded
              · exact hbufs call hcall
          · rename_i hl
            exact hlast .tooLong (hspec.long l ls hsplit (by omega)) nofun

/-- A line of two bytes in two chunks, and a longer one. -/
theorem two_chunks_read :
    (readLines 3 [[0x68], [0x69, newline, 0x61], [0x62, 0x63, 0x64]]).map LineCall.reading =
      [.line [0x68, 0x69, newline], .tooLong] := by
  rw [(readLines_eq_readings 3 (by decide)).1]
  decide

end TurboMcp.Transport.Line
