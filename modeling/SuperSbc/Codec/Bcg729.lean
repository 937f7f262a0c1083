import Mathlib.Tactic

/-!
Packets of G.729 frames, as `mod_bcg729` makes and reads them. Encoder and
decoder of the codec are not looked into: for 10 ms of speech the encoder puts
out 10 bytes, and with voice activity detection also 2 bytes of comfort noise or
none. Nothing in a packet says where a frame ends; the number of bytes left
decides what the decoder is handed.
-/

namespace SuperSbc.Codec

/-- What the encoder puts out for 10 ms. -/
abbrev Frame := List UInt8

def Frame.Encodes (useVad : Bool) (f : Frame) : Prop :=
  f.length = 10 ∨ (useVad = true ∧ (f.length = 2 ∨ f.length = 0))

/-- A call of `bcg729Decoder`. Each writes 160 bytes of PCM. -/
inductive DecoderCall where
  | frame (bytes : Frame) (isSID : Bool)
  | erasure
deriving DecidableEq

def encodeLoop (room : ℕ) : List Frame → List UInt8 → Option (List UInt8)
  | [], out => some out
  | f :: rest, out => if room < out.length + 10 then none else encodeLoop room rest (out ++ f)

/-- `switch_bcg729_encode` into a buffer with so much room; `encoder x` is what
comes out for the frame `x`. -/
def encode (room : ℕ) (encoder : ℕ → Frame) (decodedLen : ℕ) : Option (List UInt8) :=
  if decodedLen % 160 ≠ 0 then some []
  else encodeLoop room ((List.range (decodedLen / 160)).map encoder) []

/-- The loop over the packet, with the PCM written so far. -/
def decodeLoop (room : ℕ) (bytes : List UInt8) (written : ℕ) : Option (List DecoderCall) :=
  if bytes.length < 2 then some []
  else if room < written + 160 then none
  else
    let framesize := if 10 ≤ bytes.length then 10 else 2
    (decodeLoop room (bytes.drop framesize) (written + 160)).map
      (.frame (bytes.take framesize) (framesize = 2) :: ·)
termination_by bytes.length
decreasing_by
  rw [List.length_drop]
  split_ifs <;> omega

/-- `switch_bcg729_decode`, by the calls of the decoder. A packet without bytes
is a lost one, and as many frames are made up as there is room for. -/
def decode (room : ℕ) (encoded : List UInt8) : Option (List DecoderCall) :=
  if encoded = [] then some (List.replicate (room / 160) .erasure)
  else decodeLoop room encoded 0

/-- What the decoder should be called with. -/
def sent (frames : List Frame) : List DecoderCall :=
  (frames.filter (· ≠ [])).map (fun f => .frame f (f.length = 2))

/-- Wherever a frame of comfort noise begins, fewer than 10 bytes are left. -/
def NoiseLast : List Frame → Prop
  | [] => True
  | f :: rest => (f.length = 2 → (f ++ rest.flatten).length < 10) ∧ NoiseLast rest

section Packets

variable {room written : ℕ} {useVad : Bool} {f : Frame} {frames : List Frame}

theorem encodeLoop_eq {out : List UInt8} (hsize : ∀ f ∈ frames, f.length ≤ 10)
    (hroom : out.length + 10 * frames.length ≤ room) :
    encodeLoop room frames out = some (out ++ frames.flatten) := by
  induction frames generalizing out with
  | nil => simp [encodeLoop]
  | cons f rest ih =>
    obtain ⟨hf, hrest⟩ := List.forall_mem_cons.mp hsize
    rw [List.length_cons] at hroom
    rw [encodeLoop, if_neg (by omega), ih hrest (by rw [List.length_append]; omega),
      List.flatten_cons, List.append_assoc]

theorem sent_cons (hf : f ≠ []) (rest : List Frame) :
    sent (f :: rest) = .frame f (f.length = 2) :: sent rest := by
  simp [sent, hf]

theorem decodeLoop_append {rest : List UInt8} (hroom : written + 160 ≤ room)
    (hsize : f.length = if 10 ≤ (f ++ rest).length then 10 else 2) :
    decodeLoop room (f ++ rest) written =
      (decodeLoop room rest (written + 160)).map (.frame f (f.length = 2) :: ·) := by
  have hlong : ¬ (f ++ rest).length < 2 := by
    rw [List.length_append]
    split_ifs at hsize <;> omega
  rw [decodeLoop, if_neg hlong, if_neg (by omega), ← hsize]
  simp

/-- The loop finds the frames exactly if comfort noise comes last. -/
theorem decodeLoop_iff (hframes : ∀ f ∈ frames, f.Encodes useVad)
    (hroom : written + 160 * frames.length ≤ room) :
    decodeLoop room frames.flatten written = some (sent frames) ↔ NoiseLast frames := by
  induction frames generalizing written with
  | nil => simp [decodeLoop, sent, NoiseLast]
  | cons f rest ih =>
    obtain ⟨hf, hrest⟩ := List.forall_mem_cons.mp hframes
    rw [List.length_cons] at hroom
    rw [List.flatten_cons, NoiseLast]
    have hfound (hne : f ≠ [])
        (hsize : f.length = if 10 ≤ (f ++ rest.flatten).length then 10 else 2) :
        decodeLoop room (f ++ rest.flatten) written = some (sent (f :: rest)) ↔ NoiseLast rest := by
      rw [decodeLoop_append (by omega) hsize, sent_cons hne, ← @ih (written + 160) hrest
        (by omega)]
      simp [Option.map_eq_some_iff]
    rcases hf with hten | ⟨-, htwo | hzero⟩
    · rw [hfound (by rintro rfl; cases hten) (by rw [List.length_append, if_pos (by omega), hten])]
      simp [hten]
    · have hne : f ≠ [] := by
        rintro rfl
        cases htwo
      by_cases hleft : (f ++ rest.flatten).length < 10
      · rw [hfound hne (by rw [if_neg (by omega), htwo])]
        exact (and_iff_right (fun _ => hleft)).symm
      · -- ten bytes are left, and the loop takes them for speech
        refine iff_of_false (fun hloop => ?_) (fun hlast => hleft (hlast.1 htwo))
        rw [decodeLoop, if_neg (by omega), if_neg (by omega), if_pos (by omega),
          sent_cons hne] at hloop
        obtain ⟨later, -, hcalls⟩ := Option.map_eq_some_iff.mp hloop
        simp [htwo] at hcalls
    · obtain rfl := List.length_eq_zero_iff.mp hzero
      simpa [sent] using ih hrest (by omega)

theorem noiseLast_of_speech (h : ∀ f ∈ frames, f.length = 10) : NoiseLast frames := by
  induction frames with
  | nil => trivial
  | cons f rest ih =>
    obtain ⟨hf, hrest⟩ := List.forall_mem_cons.mp h
    exact ⟨fun htwo => by omega, ih hrest⟩

end Packets

/-- With room enough, the decoder is handed the frames of a packet exactly if
comfort noise is last in it and, where no frame has any bytes, no frame is asked
for. Without voice activity detection it is, and as much PCM comes out as went
in. -/
theorem frames_survive_iff (useVad : Bool) (n room room' : ℕ) (encoder : ℕ → Frame)
    (hencoder : ∀ x, (encoder x).Encodes useVad) (hroom : 10 * n ≤ room)
    (hroom' : 160 * n ≤ room') :
    let frames := (List.range n).map encoder
    ∃ packet, encode room encoder (160 * n) = some packet ∧
      (decode room' packet = some (sent frames) ↔
        NoiseLast frames ∧ (packet = [] → room' < 160)) ∧
      (useVad = false → 0 < n →
        decode room' packet = some (sent frames) ∧ 160 * (sent frames).length = 160 * n) := by
  intro frames
  have hframes : ∀ f ∈ frames, f.Encodes useVad := List.forall_mem_map.mpr (fun x _ => hencoder x)
  have hsize : ∀ f ∈ frames, f.length ≤ 10 := by
    intro f hf
    rcases hframes f hf with h | ⟨-, h | h⟩ <;> omega
  have hlength : frames.length = n := by simp [frames]
  have hloop : decodeLoop room' frames.flatten 0 = some (sent frames) ↔ NoiseLast frames :=
    decodeLoop_iff hframes (by omega)
  refine ⟨frames.flatten, ?_, ?_, ?_⟩
  · rw [encode, if_neg (by omega), Nat.mul_div_cancel_left n (by decide)]
    exact encodeLoop_eq hsize (by simpa [hlength] using hroom)
  · unfold decode
    by_cases hnone : frames.flatten = []
    · have hsent : sent frames = [] := by
        simpa [sent] using List.flatten_eq_nil_iff.mp hnone
      rw [hnone, hsent] at hloop
      simp [hnone, hsent, ← hloop, decodeLoop]
    · simp [hnone, hloop]
  · rintro rfl hpos
    have hspeech : ∀ f ∈ frames, f.length = 10 := by simpa [Frame.Encodes] using hframes
    have hne : ∀ f ∈ frames, f ≠ [] := by
      rintro _ hf rfl
      cases hspeech _ hf
    have hsome : frames.flatten ≠ [] := fun hnone =>
      hne (encoder 0) (List.mem_map_of_mem (List.mem_range.mpr hpos))
        (List.flatten_eq_nil_iff.mp hnone _ (List.mem_map_of_mem (List.mem_range.mpr hpos)))
    have hsent : frames.filter (· ≠ []) = frames := List.filter_eq_self.mpr (by simpa using hne)
    rw [decode, if_neg hsome]
    exact ⟨hloop.mpr (noiseLast_of_speech hspeech), by rw [sent, hsent, List.length_map, hlength]⟩

/-- Comfort noise after speech. -/
theorem frames_survive_iff_noise :
    let encoder : ℕ → Frame := fun x => if x = 0 then List.replicate 10 7 else [1, 2]
    ∃ packet, encode 20 encoder 320 = some packet ∧
      decode 320 packet = some (sent ((List.range 2).map encoder)) := by
  intro encoder
  have hencoder (x : ℕ) : (encoder x).Encodes true := by
    unfold encoder Frame.Encodes
    split_ifs <;> simp
  obtain ⟨packet, hpacket, hiff, -⟩ := frames_survive_iff true 2 20 320 encoder hencoder
    (by decide) (by decide)
  obtain rfl : List.replicate 10 7 ++ [1, 2] = packet := Option.some.inj hpacket
  exact ⟨_, hpacket, hiff.mpr ⟨⟨nofun, fun _ => by decide, trivial⟩, by decide⟩⟩

/-- Comfort noise before speech: the twelve bytes are cut after the tenth. -/
theorem noise_before_speech_cut :
    let encoder : ℕ → Frame := fun x => if x = 0 then [1, 2] else List.replicate 10 7
    (∀ x, (encoder x).Encodes true) ∧
      (encode 20 encoder 320).bind (decode 320) =
        some [.frame ([1, 2] ++ List.replicate 8 7) false, .frame [7, 7] true] ∧
      sent ((List.range 2).map encoder) =
        [.frame [1, 2] true, .frame (List.replicate 10 7) false] := by
  refine ⟨fun x => ?_, by decide +kernel, rfl⟩
  unfold Frame.Encodes
  dsimp only
  split_ifs <;> simp

end SuperSbc.Codec
