import Pumpbug.Ble.FrameScanner

/-!
# The framer finds the scanner's frames

After every byte the buffer is what the scanner waits at in the stream so far: `syncToHeader` and
`resyncAfterReject` skip what the scanner skips, `discard` steps over what it accepts, and a stream
that waits is shorter than the buffer.
-/

namespace Pumpbug.AcaiaV2

open Lib Lib.Scan

/-! ## One frame -/

theorem byteAt_take {l : Bytes} {n i : ℕ} (h : i < n) : byteAt (l.take n) i = byteAt l i := by
  unfold byteAt
  rw [List.getD_eq_getElem?_getD, List.getD_eq_getElem?_getD, List.getElem?_take_of_lt h]

/-- The frame parser at a complete frame with an acceptable length decides as the scanner does. -/
theorem parseWireFrame_take {type len : U8} {more : Bytes}
    (hgood : ¬ (len.toNat = 0 ∨ MAX_FRAME - 5 < len.toNat)) (hlong : len.toNat + 1 ≤ more.length) :
    verdict (HDR1 :: HDR2 :: type :: len :: more) =
      if (parseWireFrame ((HDR1 :: HDR2 :: type :: len :: more).take (len.toNat + 5))).isSome then
        .accept (len.toNat + 5)
      else .skip := by
  set buf := HDR1 :: HDR2 :: type :: len :: more with hbuf
  have hlen : (buf.take (len.toNat + 5)).length = len.toNat + 5 := by
    rw [List.length_take, hbuf]
    simp only [List.length_cons]
    omega
  have hbody : ((buf.take (len.toNat + 5)).drop 3).take len.toNat = (len :: more).take len.toNat := by
    rw [List.drop_take, List.take_take, show min len.toNat (len.toNat + 5 - 3) = len.toNat by omega]
    rfl
  have hhead : ¬ (byteAt (buf.take (len.toNat + 5)) 0 ≠ HDR1 ∨
      byteAt (buf.take (len.toNat + 5)) 1 ≠ HDR2) := by
    rw [byteAt_take (by omega), byteAt_take (by omega)]
    exact not_or_intro (fun h => h rfl) fun h => h rfl
  have hthird : byteAt (buf.take (len.toNat + 5)) 3 = len := byteAt_take (by omega)
  have heven : byteAt (buf.take (len.toNat + 5)) (len.toNat + 5 - 2) =
      byteAt (type :: len :: more) (len.toNat + 1) := byteAt_take (by omega)
  have hodd : byteAt (buf.take (len.toNat + 5)) (len.toNat + 5 - 1) =
      byteAt (type :: len :: more) (len.toNat + 2) := byteAt_take (by omega)
  have hparse : (parseWireFrame (buf.take (len.toNat + 5))).isSome =
      decide (checksum ((len :: more).take len.toNat) =
        (byteAt (type :: len :: more) (len.toNat + 1),
          byteAt (type :: len :: more) (len.toNat + 2))) := by
    unfold parseWireFrame
    rw [if_neg (by omega), if_neg hhead]
    simp only [hthird, hbody, hlen, heven, hodd]
    rw [if_neg hgood, if_neg (fun h => h rfl)]
    by_cases hck : checksum ((len :: more).take len.toNat) =
        (byteAt (type :: len :: more) (len.toNat + 1), byteAt (type :: len :: more) (len.toNat + 2))
    · rw [if_neg (by rw [hck]; simp), decide_eq_true hck]
      rfl
    · rw [if_pos, decide_eq_false hck]
      · rfl
      · by_contra hno
        rw [not_or, not_not, not_not] at hno
        exact hck (Prod.ext hno.1 hno.2)
  rw [hparse, hbuf, verdict_header, headerVerdict, if_neg hgood, if_neg (by omega)]
  simp only [decide_eq_true_eq]

/-- A stream that waits fits in the buffer, with room for a byte. -/
theorem length_lt_of_wait {l : Bytes} (h : verdict l = .wait) : l.length < MAX_FRAME := by
  have hmax : MAX_FRAME = 64 := rfl
  rcases stream_cases l with hshort | ⟨b₀, b₁, rest, rfl, hno⟩ | ⟨rest, rfl, hrest⟩ |
    ⟨type, len, more, rfl⟩
  · omega
  · rw [verdict_no_header hno] at h
    exact Verdict.noConfusion h
  · simp only [List.length_cons]
    omega
  · rw [verdict_header, headerVerdict] at h
    split_ifs at h with h₁ h₂
    simp only [List.length_cons]
    omega

theorem wait_scan (stream : Bytes) : verdict (scanFrames stream).2 = .wait := by
  rcases scan_rest verdict_stable stream with h | h
  · unfold scanFrames
    rw [h]
    rfl
  · exact h

theorem scanFrames_append (l m : Bytes) :
    scanFrames (l ++ m) = ((scanFrames l).1 ++ (scanFrames ((scanFrames l).2 ++ m)).1,
      (scanFrames ((scanFrames l).2 ++ m)).2) :=
  scan_append verdict_stable l m

namespace FrameFramer

/-! ## Skipping -/

theorem syncToHeader_cons_cons (a b : U8) (rest : Bytes) :
    syncToHeader (a :: b :: rest) =
      if a = HDR1 ∧ b = HDR2 then a :: b :: rest else syncToHeader (b :: rest) := by
  have hne : ¬ (a :: b :: rest).length = 0 := by simp
  have hne' : ¬ (b :: rest).length = 0 := by simp
  unfold syncToHeader
  rw [if_neg hne, if_neg hne', findHeader]
  by_cases h : a = HDR1 ∧ b = HDR2
  · rw [if_pos h, if_pos h]
    rfl
  · rw [if_neg h, if_neg h]
    cases hfind : findHeader (b :: rest) with
    | none => simp
    | some i =>
      unfold discard
      by_cases hi : i = 0
      · subst hi
        simp
      · by_cases hlen : (b :: rest).length ≤ i
        · simp_all
        · rw [Option.map_some]
          simp_all

theorem syncToHeader_single (b : U8) : syncToHeader [b] = if b = HDR1 then [b] else [] := by
  unfold syncToHeader
  by_cases h : b = HDR1
  · subst h
    rfl
  · simp [findHeader, h]

/-- What is in front of the first header is skipped. -/
theorem scan_syncToHeader (buf : Bytes) : scan verdict (syncToHeader buf) = scan verdict buf := by
  induction buf with
  | nil => rfl
  | cons a l ih =>
    cases l with
    | nil =>
      rw [syncToHeader_single]
      by_cases h : a = HDR1
      · rw [if_pos h]
      · rw [if_neg h, scan_skip (by rw [verdict, if_neg h])]
    | cons b rest =>
      rw [syncToHeader_cons_cons]
      by_cases h : a = HDR1 ∧ b = HDR2
      · rw [if_pos h]
      · rw [if_neg h, ih, scan_skip (verdict_no_header h)]

theorem length_syncToHeader_le (buf : Bytes) : (syncToHeader buf).length ≤ buf.length := by
  induction buf with
  | nil => exact le_refl _
  | cons a l ih =>
    cases l with
    | nil =>
      rw [syncToHeader_single]
      split_ifs <;> simp
    | cons b rest =>
      rw [syncToHeader_cons_cons]
      split_ifs
      · exact le_refl _
      · exact ih.trans (Nat.le_succ _)

/-- The buffer is at most one byte, or starts with a header. -/
theorem syncToHeader_cases (buf : Bytes) :
    syncToHeader buf = [] ∨ syncToHeader buf = [HDR1] ∨
      ∃ rest, syncToHeader buf = HDR1 :: HDR2 :: rest := by
  induction buf with
  | nil => exact .inl rfl
  | cons a l ih =>
    cases l with
    | nil =>
      rw [syncToHeader_single]
      by_cases h : a = HDR1
      · rw [if_pos h, h]
        exact .inr (.inl rfl)
      · rw [if_neg h]
        exact .inl rfl
    | cons b rest =>
      rw [syncToHeader_cons_cons]
      by_cases h : a = HDR1 ∧ b = HDR2
      · rw [if_pos h, h.1, h.2]
        exact .inr (.inr ⟨rest, rfl⟩)
      · rw [if_neg h]
        exact ih

/-- After a rejection the search goes on right behind the header's first byte. -/
theorem resyncAfterReject_cons (a b : U8) (rest : Bytes) :
    resyncAfterReject (a :: b :: rest) = syncToHeader (b :: rest) := by
  have hne : ¬ (b :: rest).length = 0 := by simp
  unfold resyncAfterReject syncToHeader
  rw [List.drop_succ_cons, List.drop_zero, if_neg hne]
  cases hfind : findHeader (b :: rest) with
  | none => simp
  | some i =>
    unfold discard
    by_cases hi : i = 0
    · subst hi
      simp
    · simp [hi]

theorem discard_eq (buf : Bytes) (n : ℕ) : discard buf n = buf.drop n := by
  unfold discard
  by_cases h : buf.length ≤ n
  · rw [if_pos h, List.drop_eq_nil_of_le h]
  · rw [if_neg h]

/-! ## Draining -/

/-- The frames that were handed to the receiver. -/
def delivered : List Report → List Frame
  | [] => []
  | .frame frame :: reports => frame :: delivered reports
  | .rejected _ :: reports => delivered reports

@[simp] theorem delivered_append (r s : List Report) :
    delivered (r ++ s) = delivered r ++ delivered s := by
  induction r with
  | nil => rfl
  | cons report r ih =>
    cases report with
    | frame frame => rw [List.cons_append, delivered, ih, delivered, List.cons_append]
    | rejected data => rw [List.cons_append, delivered, ih, delivered]

/-- The loop reported the frames of a scan and left what the scanner waits at. -/
def Delivers (result : Option (List Report × Bytes)) (found : List Bytes × Bytes) : Prop :=
  ∃ reports, result = some (reports, found.2) ∧
    (delivered reports).map some = found.1.map parseWireFrame

theorem Delivers.rejected {result : Option (List Report × Bytes)} {found : List Bytes × Bytes}
    (h : Delivers result found) (data : Bytes) :
    Delivers (result.map fun r => (.rejected data :: r.1, r.2)) found := by
  obtain ⟨reports, rfl, hwires⟩ := h
  exact ⟨.rejected data :: reports, rfl, hwires⟩

theorem Delivers.frame {result : Option (List Report × Bytes)} {found : List Bytes × Bytes}
    (h : Delivers result found) {frame : Frame} {wire : Bytes}
    (hframe : parseWireFrame wire = some frame) :
    Delivers (result.map fun r => (.frame frame :: r.1, r.2)) (wire :: found.1, found.2) := by
  obtain ⟨reports, rfl, hwires⟩ := h
  refine ⟨.frame frame :: reports, rfl, ?_⟩
  rw [delivered, List.map_cons, hwires, List.map_cons, hframe]

/-- A round takes at least one byte from the buffer, so as many rounds as it has bytes and one are
enough, and they find what the scanner finds in it. -/
theorem drain_delivers {rounds : ℕ} {buf : Bytes} (h : buf.length < rounds) :
    Delivers (drain rounds buf) (scan verdict buf) := by
  induction rounds generalizing buf with
  | zero => exact absurd h (Nat.not_lt_zero _)
  | succ rounds ih =>
    have hle := length_syncToHeader_le buf
    rw [← scan_syncToHeader]
    unfold drain
    dsimp only
    generalize hsync : syncToHeader buf = b at hle ⊢
    have hwaits : verdict b = .wait → Delivers (some ([], b)) (scan verdict b) := by
      intro hwait
      rw [scan_wait hwait]
      exact ⟨[], rfl, rfl⟩
    rcases syncToHeader_cases buf with hb | hb | ⟨rest, hb⟩
    · rw [← hsync, hb] at hwaits ⊢
      exact hwaits rfl
    · rw [← hsync, hb] at hwaits ⊢
      exact hwaits rfl
    · rw [hsync] at hb
      subst hb
      by_cases hshort : rest.length < 2
      · rw [if_pos (by simp only [List.length_cons]; omega)]
        exact hwaits (verdict_short_header hshort)
      · obtain ⟨type, len, more, rfl⟩ : ∃ type len more, rest = type :: len :: more := by
          match rest with
          | type :: len :: more => exact ⟨type, len, more, rfl⟩
          | [] | [_] => exact absurd hshort (by simp)
        simp only [List.length_cons] at hle
        -- a rejected header: the rest of the stream, scanned from right behind its first byte
        have hresync : Delivers (drain rounds (resyncAfterReject
              (HDR1 :: HDR2 :: type :: len :: more)))
            (scan verdict (HDR2 :: type :: len :: more)) := by
          have hshrunk := length_syncToHeader_le (HDR2 :: type :: len :: more)
          rw [resyncAfterReject_cons, ← scan_syncToHeader]
          apply ih
          simp only [List.length_cons] at hshrunk
          omega
        have hlen : byteAt (HDR1 :: HDR2 :: type :: len :: more) 3 = len := rfl
        rw [if_neg (by simp), hlen]
        by_cases hbad : len.toNat = 0 ∨ MAX_FRAME - 5 < len.toNat
        · rw [if_pos hbad, scan_skip (by rw [verdict_header, headerVerdict, if_pos hbad])]
          exact hresync.rejected _
        · rw [if_neg hbad]
          by_cases hwait : more.length + 2 < len.toNat + 3
          · rw [if_pos (by simp only [List.length_cons]; omega)]
            apply hwaits
            rw [verdict_header, headerVerdict, if_neg hbad, if_pos hwait]
          · rw [if_neg (by simp only [List.length_cons]; omega)]
            have hverdict := @parseWireFrame_take type len more hbad (by omega)
            cases hparse : parseWireFrame
                ((HDR1 :: HDR2 :: type :: len :: more).take (len.toNat + 5)) with
            | some frame =>
              rw [hparse, Option.isSome_some, if_pos rfl] at hverdict
              rw [scan_accept verdict_stable hverdict]
              refine Delivers.frame ?_ hparse
              rw [discard_eq]
              apply ih
              simp only [List.length_drop, List.length_cons]
              omega
            | none =>
              rw [hparse, Option.isSome_none, if_neg Bool.false_ne_true] at hverdict
              rw [scan_skip hverdict]
              exact hresync.rejected _

/-! ## Bytes and notifications -/

/-- A byte joins what waits: the buffer starts over only where the scanner skips. -/
theorem scan_appendByte {buf : Bytes} (h : verdict buf = .wait) (b : U8) :
    scan verdict (appendByte buf b) = scan verdict (buf ++ [b]) ∧
      (appendByte buf b).length ≤ buf.length + 1 := by
  match buf with
  | [] =>
    unfold appendByte
    by_cases hb : b = HDR1
    · rw [if_pos hb]
      exact ⟨rfl, le_refl _⟩
    · rw [if_neg hb, List.nil_append, scan_skip (by rw [verdict, if_neg hb])]
      exact ⟨rfl, Nat.zero_le _⟩
  | [first] =>
    obtain rfl : first = HDR1 := by
      rw [verdict] at h
      split_ifs at h with hfirst
      exact hfirst
    have hskip (hb : b ≠ HDR2) : scan verdict ([HDR1] ++ [b]) = scan verdict [b] :=
      scan_skip (verdict_no_header fun hh => hb hh.2)
    unfold appendByte
    dsimp only
    by_cases hb₂ : b = HDR2
    · rw [if_pos hb₂]
      exact ⟨rfl, le_refl _⟩
    · rw [if_neg hb₂, hskip hb₂]
      by_cases hb₁ : b = HDR1
      · rw [if_neg (not_not_intro hb₁), hb₁]
        exact ⟨rfl, Nat.le_succ _⟩
      · rw [if_pos hb₁, scan_skip (by rw [verdict, if_neg hb₁])]
        exact ⟨rfl, Nat.zero_le _⟩
  | b₀ :: b₁ :: rest =>
    -- the buffer has room, so it is not emptied
    have hroom := length_lt_of_wait h
    unfold appendByte
    rw [if_neg (Nat.not_le.2 hroom)]
    exact ⟨rfl, by rw [List.length_append]; rfl⟩

theorem Delivers.append {first : Option (List Report × Bytes)} {found : List Bytes × Bytes}
    (h : Delivers first found) {next : Bytes → Option (List Report × Bytes)}
    {more : List Bytes × Bytes} (hnext : Delivers (next found.2) more) :
    Delivers (do
      let (reports, buf) ← first
      let (more, buf) ← next buf
      some (reports ++ more, buf)) (found.1 ++ more.1, more.2) := by
  obtain ⟨reports, rfl, hwires⟩ := h
  obtain ⟨reports', hnext, hwires'⟩ := hnext
  refine ⟨reports ++ reports', ?_, ?_⟩
  · show (next found.2 >>= _) = _
    rw [hnext]
    rfl
  · rw [delivered_append, List.map_append, List.map_append, hwires, hwires']

/-- A notification is scanned behind what the buffer waits at. -/
theorem push_delivers {rounds : ℕ} (hrounds : MAX_FRAME < rounds) (data : Bytes) {buf : Bytes}
    (h : verdict buf = .wait) :
    Delivers (push rounds buf data) (scanFrames (buf ++ data)) := by
  induction data generalizing buf with
  | nil =>
    rw [List.append_nil, scanFrames, scan_wait h]
    exact ⟨[], rfl, rfl⟩
  | cons b data ih =>
    have hroom := length_lt_of_wait h
    obtain ⟨hscan, hlen⟩ := scan_appendByte h b
    have hbyte : Delivers (drain rounds (appendByte buf b)) (scan verdict (buf ++ [b])) := by
      rw [← hscan]
      exact drain_delivers (by omega)
    rw [List.append_cons, scanFrames_append]
    exact @Delivers.append _ _ hbyte (fun buf => push rounds buf data) _ (ih (wait_scan _))

end FrameFramer

/-! ## Nothing is lost -/

end Pumpbug.AcaiaV2
