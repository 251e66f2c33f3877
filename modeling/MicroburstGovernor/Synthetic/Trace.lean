import MicroburstGovernor.Lib.Decimal
import MicroburstGovernor.Transport.Payloads

/-! The line based trace format: one sample a line, fourteen decimal fields.

    A text is the list of its characters. The printer writes a field whatever its value is; the parser
    reads every field as an unsigned 64-bit number, and bounds four of them further. -/

namespace Mbg

namespace Limits

def maxTraceLineBytes : ℕ := 4096

end Limits

namespace Synthetic

abbrev Text := List Char

/-! ### Printing -/

/-- `std::to_string` of an unsigned and of a signed number. -/
def toText (v : ℕ) : Text := Nat.toDigits 10 v

def signedToText : ℤ → Text
  | .ofNat v => toText v
  | .negSucc v => '-' :: toText (v + 1)

def lineFields (s : Sample) : List Text :=
  [toText s.tick.value.toNat, toText s.stream.resource.raw.toNat, toText s.stream.queue.raw.toNat,
    toText s.depth.toNat, toText s.occupancyBytes.toNat, toText s.capacityBytes.toNat,
    signedToText s.ingressRateQ16.toInt, signedToText s.egressRateQ16.toInt,
    toText s.ingressTotal.toNat, toText s.egressTotal.toNat, toText s.dropTotal.toNat,
    toText s.markTotal.toNat, toText s.flags.toNat, toText s.resourceGeneration.raw.toNat]

/-- Renders one sample as a single bounded line. -/
def encodeLine (s : Sample) : Text :=
  let out := [' '].intercalate (lineFields s)
  if out.length > Limits.maxTraceLineBytes then out.take Limits.maxTraceLineBytes else out

/-- Renders a whole trace. -/
def encodeTrace (samples : List Sample) : Text := samples.flatMap fun s => encodeLine s ++ ['\n']

/-! ### Parsing -/

/-- `std::from_chars` over a whole token: digits only, and a number of 64 bits. -/
def parseU64 (token : Text) : Option UInt64 :=
  if token.isEmpty || !token.all Char.isDigit then none
  else
    let value := Decimal.ofDigitChars token
    if value < 2 ^ 64 then some (UInt64.ofNat value) else none

/-- The white space that `operator>>` skips. -/
def isSpace (c : Char) : Bool := c = ' ' || (9 ≤ c.toNat && c.toNat ≤ 13)

/-- The loop over the tokens of a line, with the values read so far. -/
def readFields : List Text → List UInt64 → Except Failure (List UInt64)
  | [], values => .ok values
  | token :: tokens, values =>
    if values.length ≥ 14 then Status.failure .invalidArgument "trace line has too many fields"
    else
      match parseU64 token with
      | none => Status.failure .invalidArgument "trace line has a non numeric field"
      | some value => readFields tokens (values ++ [value])

/-- The sample that the fields of a line describe: no path, no provenance, no classes, and the tick as
    its sequence. -/
def sampleOf (values : List UInt64) : Sample :=
  let field (i : ℕ) : UInt64 := values.getD i 0
  { stream := ⟨⟨field 1⟩, ⟨field 2⟩, default⟩, tick := ⟨field 0⟩, seq := ⟨field 0⟩
    resourceGeneration := ⟨(field 13).toUInt32⟩, depth := field 3, occupancyBytes := field 4
    capacityBytes := field 5, ingressRateQ16 := (field 6).toInt64, egressRateQ16 := (field 7).toInt64
    ingressTotal := field 8, egressTotal := field 9, dropTotal := field 10, markTotal := field 11
    flags := (field 12).toUInt32 }

/-- The checks on the values of a line, in order. -/
def checkFields (values : List UInt64) : Except Failure Sample :=
  let field (i : ℕ) : UInt64 := values.getD i 0
  if values.length ≠ 14 then Status.failure .truncated "trace line is missing fields"
  else if field 13 > 0xFFFFFFFF then
    Status.failure .outOfRange "trace resource generation exceeds 32 bits"
  else if field 6 > 0xFFFFFFFF ∨ field 7 > 0xFFFFFFFF then
    Status.failure .outOfRange "trace rate exceeds the supported range"
  else if field 12 > 0xFFFFFFFF then
    Status.failure .outOfRange "trace flags exceed the supported range"
  else if field 12 &&& ~~~knownFlags.toUInt64 ≠ 0 then
    Status.failure .corrupt "trace line carries undefined sample flags"
  else (validateSample (sampleOf values)).map fun _ => sampleOf values

/-- Parses one line. -/
def decodeLine (line : Text) : Except Failure Sample :=
  if line.length > Limits.maxTraceLineBytes then
    Status.failure .oversized "trace line exceeds the bound"
  else
    match readFields (Decimal.words isSpace line) [] with
    | .error e => .error e
    | .ok values => checkFields values

/-- The loop over the lines of a trace, with the samples read so far; it stops at the first line that
    is refused. -/
def decodeLines (maxSamples : ℕ) : List Text → List Sample → Status × List Sample
  | [], samples => (.ok (), samples)
  | line :: lines, samples =>
    if line.isEmpty then decodeLines maxSamples lines samples
    else if samples.length ≥ maxSamples then
      (Status.failure .oversized "trace exceeds the sample bound", samples)
    else
      match decodeLine line with
      | .error e => (.error e, samples)
      | .ok sample => decodeLines maxSamples lines (samples ++ [sample])

/-- Parses a whole trace: the status, and the samples up to there. -/
def decodeTrace (text : Text) (maxSamples : ℕ) : Status × List Sample :=
  decodeLines maxSamples (text.splitOn '\n') []

/-! ### What a line carries -/

/-- The fields that a line carries. -/
structure Fields where
  tick : Tick
  resource : ResourceId
  queue : QueueId
  depth : UInt64
  occupancyBytes : UInt64
  capacityBytes : UInt64
  ingressRateQ16 : RateQ16
  egressRateQ16 : RateQ16
  ingressTotal : UInt64
  egressTotal : UInt64
  dropTotal : UInt64
  markTotal : UInt64
  flags : SampleFlags
  resourceGeneration : ResourceGeneration
  deriving DecidableEq

def fieldsOf (s : Sample) : Fields where
  tick := s.tick
  resource := s.stream.resource
  queue := s.stream.queue
  depth := s.depth
  occupancyBytes := s.occupancyBytes
  capacityBytes := s.capacityBytes
  ingressRateQ16 := s.ingressRateQ16
  egressRateQ16 := s.egressRateQ16
  ingressTotal := s.ingressTotal
  egressTotal := s.egressTotal
  dropTotal := s.dropTotal
  markTotal := s.markTotal
  flags := s.flags
  resourceGeneration := s.resourceGeneration

/-- The samples a printer is given: validated, with defined flags. -/
structure Printable (s : Sample) : Prop where
  valid : validateSample s = .ok ()
  flags : s.flags &&& ~~~knownFlags = 0

/-- Both rates are within what the parser reads. -/
def RatesFit (s : Sample) : Prop := s.ingressRateQ16 ≤ 0xFFFFFFFF ∧ s.egressRateQ16 ≤ 0xFFFFFFFF

instance (s : Sample) : Decidable (RatesFit s) := inferInstanceAs (Decidable (_ ∧ _))

/-- The numbers on a line. -/
def values (s : Sample) : List UInt64 :=
  [s.tick.value, s.stream.resource.raw, s.stream.queue.raw, s.depth, s.occupancyBytes,
    s.capacityBytes, s.ingressRateQ16.toUInt64, s.egressRateQ16.toUInt64, s.ingressTotal,
    s.egressTotal, s.dropTotal, s.markTotal, s.flags.toUInt64, s.resourceGeneration.raw.toUInt64]

/-! ### One field -/

theorem parseU64_toText (v : UInt64) : parseU64 (toText v.toNat) = some v := by
  have hdigits : (Nat.toDigits 10 v.toNat).all Char.isDigit = true :=
    List.all_eq_true.mpr (Decimal.isDigit_toDigits v.toNat)
  have hne : (Nat.toDigits 10 v.toNat).isEmpty = false := by
    rw [List.isEmpty_eq_false_iff]
    exact Nat.toDigits_ne_nil
  rw [parseU64, toText, hdigits, hne, if_neg (by simp)]
  dsimp only
  rw [Decimal.ofDigitChars_toDigits, if_pos v.toNat_lt, UInt64.ofNat_toNat]

/-- A rate that is not negative is the word it is stored in. -/
theorem toInt_of_nonneg {r : RateQ16} (h : ¬ r < 0) : r.toInt = r.toUInt64.toNat := by
  rw [Int64.lt_iff_toInt_lt, Int64.toInt_zero] at h
  have hcond := BitVec.toInt_eq_toNat_cond r.toBitVec
  have hlt := r.toBitVec.isLt
  change r.toBitVec.toInt = (r.toBitVec.toNat : ℤ)
  change ¬ r.toBitVec.toInt < 0 at h
  split at hcond
  · exact hcond
  · omega

theorem signedToText_of_nonneg {r : RateQ16} (h : ¬ r < 0) :
    signedToText r.toInt = toText r.toUInt64.toNat := by
  rw [toInt_of_nonneg h]
  rfl

theorem rate_le_iff {r : RateQ16} (h : ¬ r < 0) : r ≤ 0xFFFFFFFF ↔ ¬ r.toUInt64 > 0xFFFFFFFF := by
  have hr := toInt_of_nonneg h
  have hlimit : (0xFFFFFFFF : RateQ16).toInt = 0xFFFFFFFF := by decide
  have hword : (0xFFFFFFFF : UInt64).toNat = 0xFFFFFFFF := by decide
  rw [Int64.le_iff_toInt_le, hr, hlimit, gt_iff_lt, UInt64.lt_iff_toNat_lt, hword]
  omega

theorem isSpace_of_isDigit {c : Char} (h : c.isDigit = true) : isSpace c = false := by
  have hrange : 48 ≤ c.toNat ∧ c.toNat ≤ 57 := by
    rw [Char.isDigit, Bool.and_eq_true, decide_eq_true_eq, decide_eq_true_eq] at h
    exact h
  have hne : c ≠ ' ' := by
    rintro rfl
    exact absurd hrange.1 (by decide)
  rw [isSpace, Bool.or_eq_false_iff, Bool.and_eq_false_iff]
  refine ⟨by simpa using hne, Or.inr ?_⟩
  rw [decide_eq_false_iff_not]
  omega

/-! ### One line -/

theorem rates_of_validateSample {s : Sample} (h : validateSample s = .ok ()) :
    ¬ s.ingressRateQ16 < 0 ∧ ¬ s.egressRateQ16 < 0 :=
  not_or.mp (validateSample_eq_ok.mp h).2.2.2.1

/-- A valid sample's line holds its numbers. -/
theorem lineFields_eq {s : Sample} (h : validateSample s = .ok ()) :
    lineFields s = (values s).map fun v => toText v.toNat := by
  obtain ⟨hingress, hegress⟩ := rates_of_validateSample h
  rw [lineFields, signedToText_of_nonneg hingress, signedToText_of_nonneg hegress]
  simp only [values, List.map_cons, List.map_nil, UInt32.toNat_toUInt64]

theorem length_toText (v : UInt64) : (toText v.toNat).length ≤ 20 := by
  have hlt := v.toNat_lt
  exact Nat.toDigits_length 10 v.toNat 20 (by decide) (by omega)

/-- No line reaches the bound, so none is cut. -/
theorem encodeLine_eq {s : Sample} (h : validateSample s = .ok ()) :
    encodeLine s = [' '].intercalate ((values s).map fun v => toText v.toNat) := by
  have hlength : ([' '].intercalate ((values s).map fun v => toText v.toNat)).length ≤ 14 * 21 := by
    refine Decimal.length_intercalate_le (k := 20) fun w hw => ?_
    obtain ⟨v, -, rfl⟩ := List.mem_map.mp hw
    exact length_toText v
  rw [encodeLine, lineFields_eq h, if_neg]
  have hmax : Limits.maxTraceLineBytes = 4096 := rfl
  omega

/-- Words that are numbers are read as those numbers. -/
theorem readFields_toText : ∀ (vs acc : List UInt64), acc.length + vs.length ≤ 14 →
    readFields (vs.map fun v => toText v.toNat) acc = .ok (acc ++ vs)
  | [], acc, _ => by rw [List.append_nil]; rfl
  | v :: vs, acc, h => by
    rw [List.length_cons] at h
    rw [List.map_cons, readFields, if_neg (by omega), parseU64_toText]
    dsimp only
    rw [readFields_toText vs (acc ++ [v]) (by rw [List.length_append, List.length_singleton]; omega),
      List.append_assoc, List.singleton_append]

theorem words_encodeLine {s : Sample} (h : validateSample s = .ok ()) :
    Decimal.words isSpace (encodeLine s) = (values s).map fun v => toText v.toNat := by
  rw [encodeLine_eq h]
  refine Decimal.words_intercalate rfl fun w hw => ?_
  obtain ⟨v, -, rfl⟩ := List.mem_map.mp hw
  exact ⟨Nat.toDigits_ne_nil, fun c hc => isSpace_of_isDigit (Decimal.isDigit_toDigits _ c hc)⟩

/-- The sample that is read from another one's line. -/
def traced (s : Sample) : Sample where
  stream := ⟨s.stream.resource, s.stream.queue, default⟩
  tick := s.tick
  seq := ⟨s.tick.value⟩
  resourceGeneration := s.resourceGeneration
  depth := s.depth
  occupancyBytes := s.occupancyBytes
  capacityBytes := s.capacityBytes
  ingressRateQ16 := s.ingressRateQ16
  egressRateQ16 := s.egressRateQ16
  ingressTotal := s.ingressTotal
  egressTotal := s.egressTotal
  dropTotal := s.dropTotal
  markTotal := s.markTotal
  flags := s.flags

theorem sampleOf_values (s : Sample) : sampleOf (values s) = traced s := by
  have hgeneration : s.resourceGeneration.raw.toUInt64.toUInt32 = s.resourceGeneration.raw :=
    UInt32.toUInt32_toUInt64 _
  have hflags : s.flags.toUInt64.toUInt32 = s.flags := UInt32.toUInt32_toUInt64 _
  simp only [sampleOf, values, List.getD_cons_zero, List.getD_cons_succ, hgeneration, hflags,
    Int64.toInt64_toUInt64]
  rfl

/-- What a line leaves out is nothing a validated sample is refused for. -/
theorem validateSample_traced {s : Sample} (h : validateSample s = .ok ()) :
    validateSample (traced s) = .ok () := by
  obtain ⟨hstream, -, hcapacity, hrates, hrange, -⟩ := validateSample_eq_ok.mp h
  exact validateSample_eq_ok.mpr ⟨hstream, Nat.zero_le _, hcapacity, hrates, hrange, by simp [traced]⟩

/-- Defined flags stay so in a wider word. -/
theorem flags_widen {flags : SampleFlags} (h : flags &&& ~~~knownFlags = 0) :
    flags.toUInt64 &&& ~~~knownFlags.toUInt64 = 0 := by
  have hwide : ∀ x y : BitVec 32, x.setWidth 64 &&& ~~~(y.setWidth 64) = (x &&& ~~~y).setWidth 64 := by
    intro x y
    ext i hi
    by_cases hlow : i < 32
    · simp [BitVec.getLsbD_eq_getElem hlow]
    · simp [BitVec.getLsbD_of_ge x i (Nat.le_of_not_lt hlow)]
  have hzero : flags.toBitVec &&& ~~~knownFlags.toBitVec = 0 := congrArg UInt32.toBitVec h
  apply UInt64.toBitVec_inj.mp
  change flags.toBitVec.setWidth 64 &&& ~~~(knownFlags.toBitVec.setWidth 64) = 0
  rw [hwide, hzero]
  rfl

theorem widen_le (x : UInt32) : ¬ x.toUInt64 > 0xFFFFFFFF := by
  have hlt := x.toNat_lt
  rw [gt_iff_lt, UInt64.lt_iff_toNat_lt, UInt32.toNat_toUInt64,
    show (0xFFFFFFFF : UInt64).toNat = 0xFFFFFFFF by decide]
  omega

/-- A line is read back exactly when its rates are within what the parser reads. -/
theorem decodeLine_encodeLine {s : Sample} (h : Printable s) : decodeLine (encodeLine s) =
    if RatesFit s then .ok (traced s)
    else Status.failure .outOfRange "trace rate exceeds the supported range" := by
  obtain ⟨hingress, hegress⟩ := rates_of_validateSample h.valid
  have hgeneration := widen_le s.resourceGeneration.raw
  have hflags := widen_le s.flags
  have hrates : (s.ingressRateQ16.toUInt64 > 0xFFFFFFFF ∨ s.egressRateQ16.toUInt64 > 0xFFFFFFFF) ↔
      ¬ RatesFit s := by
    rw [RatesFit, rate_le_iff hingress, rate_le_iff hegress]
    tauto
  have hbound : ¬ (encodeLine s).length > Limits.maxTraceLineBytes := by
    rw [encodeLine]
    split
    · rw [List.length_take]
      omega
    · assumption
  have hread := readFields_toText (values s) [] (by simp [values])
  have hchecks : checkFields (values s) = if RatesFit s then .ok (traced s)
      else Status.failure .outOfRange "trace rate exceeds the supported range" := by
    rw [checkFields, sampleOf_values, validateSample_traced h.valid, if_neg (by simp [values])]
    change (if s.resourceGeneration.raw.toUInt64 > 0xFFFFFFFF then _
      else if s.ingressRateQ16.toUInt64 > 0xFFFFFFFF ∨ s.egressRateQ16.toUInt64 > 0xFFFFFFFF then _
      else if s.flags.toUInt64 > 0xFFFFFFFF then _
      else if s.flags.toUInt64 &&& ~~~knownFlags.toUInt64 ≠ 0 then _ else _) = _
    rw [if_neg hgeneration, if_neg hflags, if_neg (not_not.mpr (flags_widen h.flags)),
      if_congr hrates rfl rfl, ite_not]
    rfl
  rw [decodeLine, if_neg hbound, words_encodeLine h.valid, hread]
  exact hchecks

/-! ### A whole trace -/

theorem encodeLine_ne_nil {s : Sample} (h : validateSample s = .ok ()) :
    (encodeLine s).isEmpty = false := by
  have hwords := words_encodeLine h
  rw [List.isEmpty_eq_false_iff]
  intro hnil
  rw [hnil] at hwords
  cases hwords

theorem newline_not_mem_encodeLine {s : Sample} (h : validateSample s = .ok ()) :
    '\n' ∉ encodeLine s := by
  rw [encodeLine_eq h]
  intro hmem
  rcases Decimal.mem_intercalate hmem with hspace | ⟨w, hw, hc⟩
  · cases hspace
  · obtain ⟨v, -, rfl⟩ := List.mem_map.mp hw
    exact absurd (Decimal.isDigit_toDigits _ _ hc) (by decide)

/-- A printed trace splits into its lines, before an empty one. -/
theorem splitOn_encodeTrace {samples : List Sample} (h : ∀ s ∈ samples, Printable s) :
    (encodeTrace samples).splitOn '\n' = samples.map encodeLine ++ [[]] := by
  have hlines : ∀ l ∈ samples.map encodeLine, '\n' ∉ l := by
    intro l hl
    obtain ⟨s, hs, rfl⟩ := List.mem_map.mp hl
    exact newline_not_mem_encodeLine (h s hs).valid
  rw [← Decimal.splitOn_lines hlines, encodeTrace, List.flatMap_map]

/-- One more line of a printed trace, with room for it. -/
theorem decodeLines_cons {maxSamples : ℕ} {s : Sample} (h : Printable s) {acc : List Sample}
    (hroom : acc.length < maxSamples) (lines : List Text) :
    decodeLines maxSamples (encodeLine s :: lines) acc =
      if RatesFit s then decodeLines maxSamples lines (acc ++ [traced s])
      else (Status.failure .outOfRange "trace rate exceeds the supported range", acc) := by
  rw [decodeLines, encodeLine_ne_nil h.valid, if_neg Bool.false_ne_true, if_neg (by omega),
    decodeLine_encodeLine h]
  by_cases hfit : RatesFit s
  · rw [if_pos hfit, if_pos hfit]
  · rw [if_neg hfit, if_neg hfit]
    rfl

/-- Lines whose rates all fit are read one after another. -/
theorem decodeLines_of_fit {maxSamples : ℕ} : ∀ {samples acc : List Sample},
    (∀ s ∈ samples, Printable s) → (∀ s ∈ samples, RatesFit s) →
    acc.length + samples.length ≤ maxSamples →
    decodeLines maxSamples (samples.map encodeLine ++ [[]]) acc =
      (.ok (), acc ++ samples.map traced)
  | [], acc, _, _, _ => by rw [List.map_nil, List.map_nil, List.append_nil]; rfl
  | s :: samples, acc, hprint, hfit, hroom => by
    rw [List.length_cons] at hroom
    rw [List.map_cons, List.cons_append, decodeLines_cons (hprint s (by simp)) (by omega),
      if_pos (hfit s (by simp)),
      decodeLines_of_fit (fun s' hs => hprint s' (List.mem_cons_of_mem _ hs))
        (fun s' hs => hfit s' (List.mem_cons_of_mem _ hs))
        (by rw [List.length_append, List.length_singleton]; omega),
      List.append_assoc, List.map_cons, List.singleton_append]

/-- A trace that is read had only rates that fit. -/
theorem fit_of_decodeLines {maxSamples : ℕ} : ∀ {samples acc : List Sample},
    (∀ s ∈ samples, Printable s) → acc.length + samples.length ≤ maxSamples →
    (decodeLines maxSamples (samples.map encodeLine ++ [[]]) acc).1 = .ok () →
    ∀ s ∈ samples, RatesFit s
  | [], _, _, _, _ => fun s hs => by cases hs
  | s :: samples, acc, hprint, hroom, h => by
    rw [List.length_cons] at hroom
    rw [List.map_cons, List.cons_append, decodeLines_cons (hprint s (by simp)) (by omega)] at h
    by_cases hfit : RatesFit s
    · rw [if_pos hfit] at h
      have hrest := fit_of_decodeLines (fun s' hs => hprint s' (List.mem_cons_of_mem _ hs))
        (by rw [List.length_append, List.length_singleton]; omega) h
      intro s' hs
      rcases List.mem_cons.mp hs with rfl | hs
      · exact hfit
      · exact hrest s' hs
    · rw [if_neg hfit] at h
      exact absurd h Status.failure_ne_ok

/-- EXACTLY WHEN: a trace of validated samples with defined flags, read with room for all of them, gives
    back every field of every line, in order, exactly when all rates are below 2^32. -/
theorem decodeTrace_encodeTrace {samples : List Sample} (hprint : ∀ s ∈ samples, Printable s)
    {maxSamples : ℕ} (hroom : samples.length ≤ maxSamples) :
    (∃ decoded, decodeTrace (encodeTrace samples) maxSamples = (.ok (), decoded) ∧
      decoded.length = samples.length ∧ decoded.map fieldsOf = samples.map fieldsOf) ↔
    ∀ s ∈ samples, RatesFit s := by
  have hstart : ([] : List Sample).length + samples.length ≤ maxSamples := by simpa using hroom
  rw [decodeTrace, splitOn_encodeTrace hprint]
  constructor
  · rintro ⟨decoded, h, -⟩
    exact fit_of_decodeLines hprint hstart (congrArg Prod.fst h)
  · intro hfit
    refine ⟨samples.map traced, decodeLines_of_fit hprint hfit hstart, List.length_map traced, ?_⟩
    rw [List.map_map]
    rfl

/-- A sample at a rate of 65536 units per tick. -/
def fastSample : Sample :=
  { stream := ⟨⟨1⟩, ⟨2⟩, default⟩, tick := ⟨5⟩, ingressRateQ16 := 4294967296, flags := 8 }

/-- The rate of 65536 units per tick is printed, and the line refused. -/
theorem fastSample_refused : ¬ ∀ (samples : List Sample) (maxSamples : ℕ),
    (∀ s ∈ samples, Printable s) → samples.length ≤ maxSamples →
    ∃ decoded, decodeTrace (encodeTrace samples) maxSamples = (.ok (), decoded) ∧
      decoded.length = samples.length ∧ decoded.map fieldsOf = samples.map fieldsOf := by
  intro h
  have hprint : ∀ s ∈ [fastSample], Printable s := by
    intro s hs
    rw [List.mem_singleton.mp hs]
    exact ⟨rfl, by decide⟩
  obtain ⟨decoded, hdecoded, -⟩ := h [fastSample] 1 hprint (by decide)
  have hrefused : (decodeTrace (encodeTrace [fastSample]) 1).1 ≠ .ok () := by decide +kernel
  exact hrefused (congrArg Prod.fst hdecoded)

/-- A sample at the highest rates that are read. -/
def topSample : Sample :=
  { stream := ⟨⟨1⟩, ⟨2⟩, default⟩, tick := ⟨5⟩, depth := 10, ingressRateQ16 := 4294967295
    egressRateQ16 := 4294967295, ingressTotal := 18446744073709551615, flags := 8 }

theorem topSample_decoded : ∃ decoded,
    decodeTrace (encodeTrace [topSample]) 1 = (.ok (), decoded) ∧ decoded.length = 1 ∧
      decoded.map fieldsOf = [fieldsOf topSample] := by
  have hprint : ∀ s ∈ [topSample], Printable s := by
    intro s hs
    rw [List.mem_singleton.mp hs]
    exact ⟨rfl, by decide⟩
  refine (decodeTrace_encodeTrace hprint (Nat.le_refl 1)).mpr fun s hs => ?_
  rw [List.mem_singleton.mp hs]
  decide

end Synthetic

end Mbg
