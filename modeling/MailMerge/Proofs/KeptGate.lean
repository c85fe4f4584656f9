import MailMerge.Proofs.GateAttempt

/-!
# The gate outlives the program

Between two runs of the program the gate is nothing but a text in a file. What that text says of a gate
is told here without the reader: an object gives the attempts under one name and may give the end of the
lock under another, each name at most once, and a list gives the one and then the other. The reader finds
such a state wherever there is one, and a text without a state means the fresh gate.

Every gate that is found can be written again: an instant that is read is one of the calendar, with a
leap second only where there may be one. So a gate that was saved is the gate that is loaded, whatever
its attempts and however its lock ends.

* `Instant.isReal_of_ofLooseRfc3339?` — an instant that is read is one of the calendar;
* `AccessGate.Denotes` says which state a recognised value holds, and `AccessGate.ofNode?_eq_some_iff`
  that the reader finds this one;
* `AccessGate.isWritable_of_ofText?` — a gate that is read can be written;
* `saved_gate_is_loaded` — what was saved is loaded, and every readable text gives a gate.
-/

namespace MailMerge

/-! ### Instants that are read -/

namespace Reading

variable {t r : Text} {nanos : Nat} {time : TimeOfDay} {offset : Int}

/-- A fraction that is read is **less than a second**. -/
theorem fraction?_lt (h : fraction? t = some (nanos, r)) : nanos < Instant.nanosPerSecond := by
  unfold fraction? at h
  split at h
  case h_2 =>
    cases h
    decide
  case h_1 behind =>
    dsimp only at h
    split at h
    case isTrue => cases h
    case isFalse =>
      cases h
      have hdigits : ∀ c ∈ (behind.takeWhile Char.isDigit).take 9, c.isDigit = true := by
        intro c hc
        exact List.all_eq_true.1 List.all_takeWhile c (List.mem_of_mem_take hc)
      have hlength : ((behind.takeWhile Char.isDigit).take 9).length ≤ 9 :=
        List.length_take_le _ _
      generalize (behind.takeWhile Char.isDigit).take 9 = kept at hdigits hlength ⊢
      -- the digits that are missing are zeros
      calc Text.digitsValue kept * 10 ^ (9 - kept.length)
        _ < 10 ^ kept.length * 10 ^ (9 - kept.length) :=
          Nat.mul_lt_mul_of_pos_right (Text.digitsValue_lt hdigits) (Nat.pow_pos (by decide))
        _ = Instant.nanosPerSecond := by
          rw [← Nat.pow_add, Nat.add_sub_cancel' hlength]
          rfl

theorem timeOfDay?_bounds {hour minute second : Nat} (h : timeOfDay? hour minute second nanos = some time)
    (hnanos : nanos < Instant.nanosPerSecond) :
    time.second ≤ 60 ∧ time.nanos < Instant.nanosPerSecond := by
  unfold timeOfDay? at h
  split at h
  case isTrue hclock =>
    cases h
    exact ⟨hclock.2.2, hnanos⟩
  case isFalse => cases h

/-- A time of day that is read **has at most sixty seconds** and a fraction. -/
theorem looseTime?_bounds (h : looseTime? t = some (time, r)) :
    time.second ≤ 60 ∧ time.nanos < Instant.nanosPerSecond := by
  unfold looseTime? at h
  simp only [Option.bind_eq_bind, Option.bind_eq_some_iff] at h
  obtain ⟨_, -, _, -, _, -, _, -, _, -, ⟨nanos, _⟩, hfraction, time', htime, h⟩ := h
  cases h
  exact timeOfDay?_bounds htime (fraction?_lt hfraction)

/-- An offset that is read is **one of whole minutes**. -/
theorem offset?_dvd {separator : Text → Option Text} (h : offset? separator t = some (offset, r)) :
    (60 : Int) ∣ offset := by
  unfold offset? at h
  split at h
  case h_1 => cases h
  case h_2 sign behind =>
    split at h
    case isTrue =>
      cases h
      exact Int.dvd_zero _
    case isFalse =>
      simp only [Option.bind_eq_bind] at h
      split at h
      case' isFalse => split at h
      -- the sign makes no difference
      all_goals
        simp only [Option.bind_eq_some_iff] at h
        obtain ⟨direction, -, ⟨hours, _⟩, -, _, -, ⟨minutes, _⟩, -, h⟩ := h
        dsimp only at h
        split at h
        case isTrue => cases h
        case isFalse =>
          cases h
          refine Int.dvd_mul_of_dvd_right ?_
          omega

theorem looseZone?_dvd (h : looseZone? t = some (offset, r)) : (60 : Int) ∣ offset := by
  unfold looseZone? at h
  split at h
  case isTrue =>
    cases h
    exact Int.dvd_zero _
  case isFalse => exact offset?_dvd h

end Reading

namespace Instant

/-- The instant of a time of the clock and an offset of whole minutes has a leap second **only at the
end of a minute**. -/
theorem nanos_of {date : Date} {time : TimeOfDay} {offset : Int} (hnanos : time.nanos < nanosPerSecond)
    (hoffset : (60 : Int) ∣ offset) :
    (of date time offset).nanos < nanosPerSecond ∨
      ((of date time offset).nanos < 2 * nanosPerSecond ∧ (of date time offset).seconds % 60 = 59) := by
  unfold of
  dsimp only
  by_cases hleap : time.second = 60
  · right
    simp only [hleap, if_true]
    exact ⟨by omega, by omega⟩
  · left
    simp only [hleap, if_false]
    exact hnanos

/-- An instant that is **read is one of the calendar**. -/
theorem isReal_of_ofLooseRfc3339? {t : Text} {i : Instant} (h : ofLooseRfc3339? t = some i) :
    i.IsReal := by
  obtain ⟨⟨date, time, offset⟩, hall, hparts⟩ := Option.bind_eq_some_iff.1 h
  -- The parts are bounded as they are read, whatever stands behind them.
  have hread : ∃ r, Reading.looseRfc3339? t = some ((date, time, offset), r) := by
    unfold Reading.all? at hall
    split at hall
    case h_1 parts heq =>
      cases hall
      exact ⟨[], heq⟩
    case h_2 => cases hall
  obtain ⟨r, hread⟩ := hread
  simp only [Reading.looseRfc3339?, Option.bind_eq_bind, Option.bind_eq_some_iff] at hread
  obtain ⟨_, -, _, -, ⟨_, _⟩, htime, ⟨_, _⟩, hzone, hread⟩ := hread
  cases hread
  obtain ⟨hsecond, hnanos⟩ := Reading.looseTime?_bounds htime
  obtain ⟨d, hdate, hi⟩ := Option.map_eq_some_iff.1 hparts
  subst hi
  exact ⟨by rw [hdate]; rfl, nanos_of hnanos (Reading.looseZone?_dvd hzone)⟩

end Instant

/-! ### The state that a value holds -/

/-- Whether a name stands among members **only once**, with its value. -/
def OnlyUnder (name : Text) (members : List (Text × JsonNode)) (value : JsonNode) : Prop :=
  ∃ before behind, members = before ++ (name, value) :: behind ∧
    name ∉ before.map Prod.fst ∧ name ∉ behind.map Prod.fst

namespace AccessGate

variable {name : Text} {members named : List (Text × JsonNode)} {node value : JsonNode} {gate : AccessGate}
  {n : UInt32} {ending : Option Instant}

theorem filter_name_eq_nil_iff :
    (members.filter fun m => m.1 == name) = [] ↔ name ∉ members.map Prod.fst := by
  rw [List.filter_eq_nil_iff, List.mem_map, not_exists]
  apply forall_congr'
  intro m
  rw [beq_iff_eq, not_and]

/-- A name that is **not there** has no value. -/
theorem single?_eq_some_none_iff : single? name members = some none ↔ name ∉ members.map Prod.fst := by
  rw [← filter_name_eq_nil_iff]
  unfold single?
  constructor
  · intro h
    split at h
    case h_1 hnil => exact hnil
    case h_2 => cases h
    case h_3 => cases h
  · intro h
    rw [h]

/-- A name that stands **only once** has its value. -/
theorem single?_eq_some_some_iff :
    single? name members = some (some value) ↔ OnlyUnder name members value := by
  constructor
  · intro h
    unfold single? at h
    split at h
    case h_1 => cases h
    case h_2 m hm =>
      cases h
      obtain ⟨before, behind, rfl, hbefore, hname, hbehind⟩ := List.filter_eq_cons_iff.1 hm
      rw [beq_iff_eq] at hname
      subst hname
      refine ⟨before, behind, rfl, ?_, filter_name_eq_nil_iff.1 hbehind⟩
      exact filter_name_eq_nil_iff.1 (List.filter_eq_nil_iff.2 hbefore)
    case h_3 => cases h
  · rintro ⟨before, behind, rfl, hbefore, hbehind⟩
    have hfilter : ((before ++ (name, value) :: behind).filter fun m => m.1 == name) = [(name, value)] := by
      rw [List.filter_append, filter_name_eq_nil_iff.2 hbefore, List.nil_append,
        List.filter_cons, filter_name_eq_nil_iff.2 hbehind, if_pos (beq_self_eq_true name)]
    unfold single?
    rw [hfilter]

/-- Whether a value is a numeral that **counts** some attempts. -/
def IsCount (node : JsonNode) (n : UInt32) : Prop :=
  ∃ numeral, node = .number numeral ∧ numeral.value? = some (.integer n.toNat)

/-- Whether a value **tells the end of a lock**: there is none, or a string gives its instant. -/
def IsEnding (node : JsonNode) : Option Instant → Prop
  | none => node = .null
  | some i =>
    ∃ body t, node = .string body ∧ JsonNode.unescape? body = some t ∧ Instant.ofLooseRfc3339? t = some i

theorem attemptsOf?_eq_some_iff : attemptsOf? node = some n ↔ IsCount node n := by
  constructor
  · intro h
    unfold attemptsOf? at h
    split at h
    case h_2 => cases h
    case h_1 numeral =>
      split at h
      case h_2 => cases h
      case h_1 m hvalue =>
        split at h
        case isFalse => cases h
        case isTrue hfits =>
          cases h
          refine ⟨numeral, rfl, ?_⟩
          rw [hvalue, UInt32.toNat_ofNat_of_lt' hfits.2, Int.toNat_of_nonneg hfits.1]
  · rintro ⟨numeral, rfl, hvalue⟩
    have hfits : 0 ≤ (n.toNat : Int) ∧ (n.toNat : Int).toNat < UInt32.size := ⟨by omega, n.toNat_lt⟩
    simp only [attemptsOf?, hvalue]
    rw [if_pos hfits, Int.toNat_natCast, UInt32.ofNat_toNat]

theorem lockedUntilOf?_eq_some_iff : lockedUntilOf? node = some ending ↔ IsEnding node ending := by
  constructor
  · intro h
    unfold lockedUntilOf? at h
    split at h
    case h_1 =>
      cases h
      rfl
    case h_2 body =>
      obtain ⟨i, hi, h⟩ := Option.map_eq_some_iff.1 h
      subst h
      obtain ⟨t, ht, hi⟩ := Option.bind_eq_some_iff.1 hi
      exact ⟨body, t, rfl, ht, hi⟩
    case h_3 => cases h
  · intro h
    cases ending with
    | none =>
      rw [show node = .null from h]
      rfl
    | some i =>
      obtain ⟨body, t, rfl, ht, hi⟩ := h
      rw [lockedUntilOf?, ht, Option.bind_eq_bind, Option.bind_some, hi]
      rfl

/-- Which **state** a recognised value holds: members under their names, where other names make no
difference, or a list of the two. -/
inductive Denotes : JsonNode → AccessGate → Prop
  | unlocked {members named count n} (hnames : named? members = some named)
      (hcount : OnlyUnder attemptsName named count) (hn : IsCount count n)
      (hlock : lockedUntilName ∉ named.map Prod.fst) : Denotes (.object members) ⟨n, none⟩
  | object {members named count n lock ending} (hnames : named? members = some named)
      (hcount : OnlyUnder attemptsName named count) (hn : IsCount count n)
      (hlock : OnlyUnder lockedUntilName named lock) (hending : IsEnding lock ending) :
      Denotes (.object members) ⟨n, ending⟩
  | count {count n} (hn : IsCount count n) : Denotes (.array [count]) ⟨n, none⟩
  | list {count n lock ending} (hn : IsCount count n) (hending : IsEnding lock ending) :
      Denotes (.array [count, lock]) ⟨n, ending⟩

theorem denotes_of_ofMembers? (h : ofMembers? members = some gate) : Denotes (.object members) gate := by
  simp only [ofMembers?, Option.bind_eq_bind, Option.bind_eq_some_iff] at h
  obtain ⟨named, hnames, _, hfound, n, ⟨count, rfl, hn⟩, lock, hlock, h⟩ := h
  have hcount := single?_eq_some_some_iff.1 hfound
  have hn := attemptsOf?_eq_some_iff.1 hn
  cases lock with
  | none =>
    cases h
    exact .unlocked hnames hcount hn (single?_eq_some_none_iff.1 hlock)
  | some lock =>
    obtain ⟨ending, hending, h⟩ := Option.bind_eq_some_iff.1 h
    cases h
    exact .object hnames hcount hn (single?_eq_some_some_iff.1 hlock) (lockedUntilOf?_eq_some_iff.1 hending)

/-- The reader finds **the state that a value holds**, and no other. -/
theorem ofNode?_eq_some_iff : ofNode? node = some gate ↔ Denotes node gate := by
  constructor
  · -- one case for each shape of a value
    intro h
    unfold ofNode? at h
    split at h
    case h_1 => exact denotes_of_ofMembers? h
    case h_2 count =>
      obtain ⟨n, hn, h⟩ := Option.map_eq_some_iff.1 h
      subst h
      exact .count (attemptsOf?_eq_some_iff.1 hn)
    case h_3 count lock =>
      simp only [Option.bind_eq_bind, Option.bind_eq_some_iff] at h
      obtain ⟨n, hn, ending, hending, h⟩ := h
      cases h
      exact .list (attemptsOf?_eq_some_iff.1 hn) (lockedUntilOf?_eq_some_iff.1 hending)
    case h_4 => cases h
  · intro h
    cases h with
    | unlocked hnames hcount hn hlock =>
      simp only [ofNode?, ofMembers?, hnames, single?_eq_some_some_iff.2 hcount,
        single?_eq_some_none_iff.2 hlock, attemptsOf?_eq_some_iff.2 hn, Option.bind_eq_bind,
        Option.bind_some, Option.pure_def]
    | object hnames hcount hn hlock hending =>
      simp only [ofNode?, ofMembers?, hnames, single?_eq_some_some_iff.2 hcount,
        single?_eq_some_some_iff.2 hlock, attemptsOf?_eq_some_iff.2 hn,
        lockedUntilOf?_eq_some_iff.2 hending, Option.bind_eq_bind, Option.bind_some, Option.pure_def]
    | count hn => rw [ofNode?, attemptsOf?_eq_some_iff.2 hn, Option.map_some]
    | list hn hending =>
      simp only [ofNode?, attemptsOf?_eq_some_iff.2 hn, lockedUntilOf?_eq_some_iff.2 hending,
        Option.bind_eq_bind, Option.bind_some, Option.pure_def]

/-- A state that a value holds **can be written**. -/
theorem Denotes.isWritable (h : Denotes node gate) : gate.IsWritable := by
  have hreal : ∀ {lock : JsonNode} {ending : Option Instant}, IsEnding lock ending →
      ∀ i, ending = some i → i.IsReal := by
    rintro lock ending hending i rfl
    obtain ⟨_, _, -, -, hi⟩ := hending
    exact Instant.isReal_of_ofLooseRfc3339? hi
  cases h with
  | unlocked => exact isWritable_of_lockedUntil rfl
  | object _ _ _ _ hending => exact hreal hending
  | count => exact isWritable_of_lockedUntil rfl
  | list _ hending => exact hreal hending

/-- Whether a text **holds a state**: it is JSON, and the value holds the state. -/
def HeldBy (t : Text) (gate : AccessGate) : Prop :=
  ∃ node, JsonNode.ofText? t = some node ∧ Denotes node gate

theorem ofText?_eq_some_iff {t : Text} : ofText? t = some gate ↔ gate.HeldBy t := by
  rw [ofText?, Option.bind_eq_bind, Option.bind_eq_some_iff]
  apply exists_congr
  intro node
  rw [ofNode?_eq_some_iff]

end AccessGate

/-! ### Loading -/

/-- A file of **readable text always gives a gate**: the one that the text holds, or the fresh one if it
holds none. -/
theorem storedGate_of_text {files : FileSystem} {path t : Text} {bytes : Bytes}
    (hread : files.read path = .ok bytes) (htext : Text.ofUtf8? bytes = some t) :
    ∃ gate, storedGate files path = .ok gate ∧ gate.IsWritable ∧
      (gate.HeldBy t ∨ (gate = .fresh ∧ ∀ other : AccessGate, ¬ other.HeldBy t)) := by
  have hstored : storedGate files path = .ok ((AccessGate.ofText? t).getD .fresh) := by
    unfold storedGate
    simp only [hread, htext]
  refine ⟨_, hstored, ?_⟩
  cases hstate : AccessGate.ofText? t with
  | some gate =>
    obtain ⟨node, htext, hnode⟩ := AccessGate.ofText?_eq_some_iff.1 hstate
    exact ⟨hnode.isWritable, .inl ⟨node, htext, hnode⟩⟩
  | none =>
    refine ⟨AccessGate.isWritable_of_lockedUntil rfl, .inr ⟨rfl, ?_⟩⟩
    intro other hother
    rw [AccessGate.ofText?_eq_some_iff.2 hother] at hstate
    cases hstate

/-- A gate that is saved **is the gate that is loaded**, whoever finds the files as they were left. A file
of readable text, whatever it says, is loaded without an error: it gives the gate that it holds, or the
fresh one if it holds none, and a gate that can be saved in its turn. -/
theorem saved_gate_is_loaded (path : Text) :
    (∀ (gate : AccessGate) (w w' later : World), gate.IsWritable →
      (saveGate path gate).runIn w = (.ok (), w') → later.files = w'.files →
      (loadGate path).runIn later = (.ok gate, later)) ∧
    (∀ (w : World) (bytes : Bytes) (t : Text), w.files.read path = .ok bytes →
      Text.ofUtf8? bytes = some t →
      ∃ gate : AccessGate, (loadGate path).runIn w = (.ok gate, w) ∧ gate.IsWritable ∧
        (gate.HeldBy t ∨ (gate = .fresh ∧ ∀ other : AccessGate, ¬ other.HeldBy t))) := by
  constructor
  · intro gate w w' later hgate hsave hfiles
    obtain ⟨-, hstored, -⟩ := storedGate_of_saveGate hgate hsave rfl
    rw [runIn_loadGate, hfiles, hstored]
  · intro w bytes t hread htext
    obtain ⟨gate, hstored, hgate⟩ := storedGate_of_text hread htext
    refine ⟨gate, ?_, hgate⟩
    rw [runIn_loadGate, hstored]

/-- A gate that is locked until the middle of the last leap second there could be. -/
def lastingGate : AccessGate := ⟨4294967295, some ⟨8210266876799, 1500000000⟩⟩

/-- A world whose state file breaks off. -/
def interruptedWorld : World where
  files := FileSystem.empty.put ["access.json"] (.file (Text.toUtf8 "[3"))
  environment := []
  home := none
  clock := ⟨0, 0⟩
  endpoint := fun _ _ => .error []
  exchanges := []

/-- A state file that breaks off gives a gate, and what is saved in its place **is loaded**, also if the
lock lasts longer than years have four digits. -/
theorem saved_gate_is_loaded_over_interrupted :
    lastingGate.IsWritable ∧
      ((saveGate "access.json" lastingGate).runIn interruptedWorld).1 = .ok () ∧
      (loadGate "access.json").runIn ((saveGate "access.json" lastingGate).runIn interruptedWorld).2 =
        (.ok lastingGate, ((saveGate "access.json" lastingGate).runIn interruptedWorld).2) ∧
      interruptedWorld.files.read "access.json" = .ok (Text.toUtf8 "[3") ∧
      ∃ gate : AccessGate,
        (loadGate "access.json").runIn interruptedWorld = (.ok gate, interruptedWorld) ∧
          gate.IsWritable ∧
          (gate.HeldBy "[3" ∨ (gate = .fresh ∧ ∀ other : AccessGate, ¬ other.HeldBy "[3")) := by
  have hgate : lastingGate.IsWritable := by
    intro ending hending
    cases hending
    exact ⟨by decide +kernel, .inr ⟨by decide, by decide⟩⟩
  have hsave : ((saveGate "access.json" lastingGate).runIn interruptedWorld).1 = .ok () := by
    decide +kernel
  have hread : interruptedWorld.files.read "access.json" = .ok (Text.toUtf8 "[3") := by decide +kernel
  obtain ⟨hloaded, hfound⟩ := saved_gate_is_loaded "access.json"
  exact ⟨hgate, hsave, hloaded _ _ _ _ hgate (Prod.ext hsave rfl) rfl, hread,
    hfound _ _ _ hread (Text.ofUtf8?_toUtf8 _)⟩

end MailMerge
