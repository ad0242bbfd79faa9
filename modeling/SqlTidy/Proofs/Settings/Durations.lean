import SqlTidy.Proofs.Settings.Resolution
import SqlTidy.RateLimit.Limiter
import Mathlib.Tactic.IntervalCases

/-! Durations that are loaded. They are products in 64 bits and so say what their settings say
up to a limit only, which no load enforces: every number from one to the largest of 64 bits can
be loaded. -/
namespace SqlTidy

theorem wrap64_eq_self_iff (n : Int) : wrap64 n = n ↔ -9223372036854775808 ≤ n ∧ n < 9223372036854775808 := by
  simp only [wrap64,wordCount,Int.bmod_def]
  split <;> omega

namespace Bytes

/-- The digit of a number below ten. -/
def digit (d : Nat) : UInt8 := UInt8.ofNat (0x30 + d)

theorem digit_eq (d : Nat) (small : d < 10) : (Nat.digitChar d).toUInt8 = digit d := by
  interval_cases d <;> rfl

theorem ofNat_small (n : Nat) (small : n < 10) : ofNat n = [digit n] := by
  rw [ofNat,Nat.toDigits_of_lt_base small,List.map_singleton,digit_eq n small]

theorem ofNat_large (n : Nat) (large : 10 ≤ n) : ofNat n = ofNat (n / 10) ++ [digit (n % 10)] := by
  rw [ofNat,Nat.toDigits_of_base_le (by decide) large,List.map_append,List.map_singleton,
    digit_eq _ (Nat.mod_lt n (by decide))]
  rfl

theorem isDigit_of_mem_ofNat (n : Nat) : ∀ b ∈ ofNat n, Ascii.isDigit b = true := by
  have digits (d : Nat) (small : d < 10) : Ascii.isDigit (digit d) = true := by interval_cases d <;> rfl
  induction n using Nat.strongRecOn with
  | ind n ih =>
    by_cases small : n < 10
    · rw [ofNat_small n small]
      simpa using digits n small
    · have large : 10 ≤ n := Nat.le_of_not_lt small
      rw [ofNat_large n large]
      intro b member
      rcases List.mem_append.mp member with front | last
      · exact ih (n / 10) (by omega) b front
      · rw [List.mem_singleton.mp last]
        exact digits _ (Nat.mod_lt n (by decide))

/-- The first digit of a number is not zero, unless the number is. -/
theorem ofNat_begins (n : Nat) (some : 0 < n) : ∃ b rest, ofNat n = b :: rest ∧ b ≠ Ascii.zero := by
  induction n using Nat.strongRecOn with
  | ind n ih =>
    by_cases small : n < 10
    · refine ⟨digit n,[],ofNat_small n small,?_⟩
      interval_cases n <;> decide
    · have large : 10 ≤ n := Nat.le_of_not_lt small
      obtain ⟨b,rest,begins,solid⟩ := ih (n / 10) (by omega) (by omega)
      exact ⟨b,rest ++ [digit (n % 10)],by rw [ofNat_large n large,begins,List.cons_append],solid⟩

end Bytes

namespace Integer
open Ascii

theorem accumulate_append (base n : Nat) (left right : Bytes) :
    accumulate base n (left ++ right) = (accumulate base n left).bind fun m => accumulate base m right := by
  induction left generalizing n with
  | nil => rfl
  | cons b left ih =>
    simp only [List.cons_append,accumulate]
    split
    next => exact ih n
    next =>
      split
      next => rfl
      next d _ =>
        split
        next => exact ih (base * n + d)
        next => rfl

theorem accumulate_digit (n d : Nat) (small : d < 10) (fits : 10 * n + d < wordCount) :
    accumulate 10 n [Bytes.digit d] = .ok (10 * n + d) := by
  have read : digit? 10 (Bytes.digit d) = some d := by interval_cases d <;> rfl
  have solid : (Bytes.digit d == underscore) = false := by interval_cases d <;> rfl
  simp [accumulate,read,solid,fits]

theorem accumulate_ofNat (n : Nat) (fits : n < wordCount) : accumulate 10 0 (Bytes.ofNat n) = .ok n := by
  induction n using Nat.strongRecOn with
  | ind n ih =>
    by_cases small : n < 10
    · rw [Bytes.ofNat_small n small,accumulate_digit 0 n small (by omega)]
      simp
    · have large : 10 ≤ n := Nat.le_of_not_lt small
      have whole : 10 * (n / 10) + n % 10 = n := Nat.div_add_mod n 10
      rw [Bytes.ofNat_large n large,accumulate_append,ih (n / 10) (by omega) (by omega)]
      refine (accumulate_digit (n / 10) (n % 10) (Nat.mod_lt n (by decide)) (by omega)).trans ?_
      rw [whole]

theorem underscoresFit_of_not_mem (afterDigit : Bool) (text : Bytes) (absent : underscore ∉ text) :
    underscoresFit afterDigit text = true := by
  induction text generalizing afterDigit with
  | nil => rfl
  | cons b text ih =>
    have other : b ≠ underscore := fun same => absent (same ▸ List.mem_cons_self)
    have rest : underscore ∉ text := fun inside => absent (List.mem_cons_of_mem b inside)
    simp [underscoresFit,other,ih true rest]

/-- A positive number is read back from its decimal digits. -/
theorem signed_ofNat (n : Nat) (some : 0 < n) (fits : n < signedLimit) : signed (Bytes.ofNat n) = .ok (n : Int) := by
  have word : n < wordCount := Nat.lt_trans fits (by decide)
  have digits := Bytes.isDigit_of_mem_ofNat n
  have absent : underscore ∉ Bytes.ofNat n := fun inside => absurd (digits _ inside) (by decide)
  obtain ⟨b,rest,begins,solid⟩ := Bytes.ofNat_begins n some
  have value := accumulate_ofNat n word
  rw [begins] at digits absent value ⊢
  have first := digits b List.mem_cons_self
  have minus : b ≠ 0x2D := fun same => absurd (same ▸ first) (by decide)
  have plus : b ≠ 0x2B := fun same => absurd (same ▸ first) (by decide)
  have decimal : baseAndDigits (b :: rest) = (10,b :: rest) := by
    unfold baseAndDigits
    split <;> simp_all
  have allowed : underscoresAllowed (b :: rest) = true := by
    unfold underscoresAllowed
    split
    next => simp_all
    next => exact underscoresFit_of_not_mem false _ absent
  have read : unsigned (b :: rest) = .ok n := by
    simp [unsigned,decimal,value,allowed]
  unfold signed
  split
  next => simp_all
  next => simp_all
  next => simp [read,Except.bind,fits]

end Integer

/-- A product in 64 bits is exact up to the largest count that fits; from there to twice as much
it is negative. -/
theorem wrap64_mul (unit largest count : Int) (some : 0 < count) (positive : 0 < unit)
    (fits : largest * unit < 9223372036854775808) (beyond : 9223372036854775808 ≤ (largest + 1) * unit) :
    (wrap64 (count * unit) = count * unit ↔ count ≤ largest) ∧ (count ≤ largest → 0 < wrap64 (count * unit)) ∧
      (largest < count → count ≤ 2 * largest → wrap64 (count * unit) < 0) := by
  have product : 0 < count * unit := Int.mul_pos some positive
  have below (bound : Int) (within : count ≤ bound) : count * unit ≤ bound * unit :=
    Int.mul_le_mul_of_nonneg_right within positive.le
  have exact_iff : wrap64 (count * unit) = count * unit ↔ count ≤ largest := by
    rw [wrap64_eq_self_iff]
    constructor
    · rintro ⟨_,less⟩
      by_contra more
      have least := Int.mul_le_mul_of_nonneg_right (Int.not_le.mp more) positive.le
      omega
    · intro within
      have most := below largest within
      omega
  refine ⟨exact_iff,fun within => ?_,fun more within => ?_⟩
  · rw [exact_iff.mpr within]
    exact product
  · have least := Int.mul_le_mul_of_nonneg_right more positive.le
    have most := below (2 * largest) within
    rw [Int.mul_assoc] at most
    simp only [wrap64,wordCount,Int.bmod_def]
    split <;> omega

namespace Settings

structure TrueDurations (settings : Settings) : Prop where
  interval_pos : 0 < settings.cleanupInterval
  interval_eq : settings.cleanupInterval = settings.cleanupMinutes * 60000000000
  timeout_pos : 0 < settings.shutdownTimeout
  timeout_eq : settings.shutdownTimeout = settings.shutdownSeconds * 1000000000

theorem positiveOr_pos (other n : Int) (positive : 0 < other) : 0 < positiveOr other n := by
  unfold positiveOr
  split <;> omega

theorem load_positive (environment files : Named) (loaded : Loaded) (ok : load environment files = .ok loaded) :
    0 < loaded.settings.cleanupMinutes ∧ 0 < loaded.settings.shutdownSeconds := by
  rw [(load_eq_ok Yaml.members? environment files loaded ok).2]
  exact ⟨positiveOr_pos 10 _ (by decide),positiveOr_pos 10 _ (by decide)⟩

section Variables

theorem convert_variable (environment : Named) (file : File) (setting : Setting) (number : setting ≠ .logLevel)
    (n : Nat) (some : 0 < n) (fits : n < signedLimit) (set : environment.find? setting.name = Option.some (Bytes.ofNat n)) :
    convert setting (given environment file setting) = .ok (.number n) := by
  obtain ⟨b,rest,begins,_⟩ := Bytes.ofNat_begins n some
  have gives := (fromEnvironment?_eq_some environment setting _).mpr ⟨set,by simp [begins]⟩
  have full : (Bytes.ofNat n).isEmpty = false := by rw [begins,List.isEmpty_cons]
  have value := Integer.signed_ofNat n some fits
  rw [given,gives]
  simp [convert,number,intOf,full,value,Except.map]

theorem convert_fallback (setting : Setting) : ∃ field, convert setting setting.fallback = .ok field := by
  cases setting <;> exact ⟨_,rfl⟩

/-- Every two positive numbers of 64 bits can be loaded for the two durations. -/
theorem load_numbers (minutes seconds : Nat) (someMinutes : 0 < minutes) (someSeconds : 0 < seconds)
    (fitMinutes : minutes < signedLimit) (fitSeconds : seconds < signedLimit) :
    ∃ loaded, load [(utf8 "RATE_LIMIT_CLEANUP_INTERVAL",Bytes.ofNat minutes),
        (utf8 "SHUTDOWN_TIMEOUT",Bytes.ofNat seconds)] [] = .ok loaded ∧
      loaded.settings.cleanupMinutes = minutes ∧ loaded.settings.shutdownSeconds = seconds := by
  let environment : Named := [(utf8 "RATE_LIMIT_CLEANUP_INTERVAL",Bytes.ofNat minutes),
    (utf8 "SHUTDOWN_TIMEOUT",Bytes.ofNat seconds)]
  have first := convert_variable environment (File.find Yaml.members? []) .cleanupMinutes (by decide) minutes someMinutes
    fitMinutes rfl
  have second := convert_variable environment (File.find Yaml.members? []) .shutdownSeconds (by decide) seconds someSeconds
    fitSeconds rfl
  have converts (setting : Setting) :
      ∃ field, convert setting (given environment (File.find Yaml.members? []) setting) = .ok field := by
    cases setting with
    | cleanupMinutes => exact ⟨_,first⟩
    | shutdownSeconds => exact ⟨_,second⟩
    | _ => exact convert_fallback _
  cases loading : load environment [] with
  | error faults =>
    obtain ⟨setting,cause,unsuited⟩ := (load_fails_iff Yaml.members? environment []).mp ⟨faults,loading⟩
    obtain ⟨field,converted⟩ := converts setting
    simp [converted] at unsuited
  | ok loaded =>
    have loads (setting : Setting) (n : Int) (same : convert setting (given environment (File.find Yaml.members? []) setting) =
        .ok (.number n)) : loaded.settings.field setting = inRange setting (.number n) := by
      obtain ⟨field,converted,brought⟩ := load_field Yaml.members? environment [] loaded loading setting
      rw [Except.ok.inj (converted.symm.trans same)] at brought
      exact brought
    have kept (n : Nat) (some : 0 < n) : positiveOr 10 (n : Int) = n := if_neg (by omega)
    refine ⟨loaded,rfl,?_,?_⟩
    · exact (Field.number.inj (loads _ _ first)).trans (kept minutes someMinutes)
    · exact (Field.number.inj (loads _ _ second)).trans (kept seconds someSeconds)

end Variables

/-- Whatever is loaded, the durations are true exactly up to 153722867 minutes and 9223372036
seconds, and then the limiter cleans up in the interval that is set. Beyond, up to twice as
much, they are negative: the limiter falls back to an interval of its own. All these numbers can
be loaded. -/
theorem durations_true_iff (environment files : Named) (loaded : Loaded)
    (ok : load environment files = .ok loaded) :
    let settings := loaded.settings
    let limits := Limiter.Settings.clamped settings.requestsPerMinute settings.burstSize settings.cleanupInterval
    (settings.TrueDurations ↔ settings.cleanupMinutes ≤ 153722867 ∧ settings.shutdownSeconds ≤ 9223372036) ∧
    (settings.cleanupInterval = settings.cleanupMinutes * 60000000000 ↔ settings.cleanupMinutes ≤ 153722867) ∧
    (settings.cleanupMinutes ≤ 153722867 → (limits.interval : Int) = settings.cleanupInterval) ∧
    (153722867 < settings.cleanupMinutes → settings.cleanupMinutes ≤ 307445734 →
      settings.cleanupInterval < 0 ∧ limits.interval = Limiter.defaultInterval) ∧
    (settings.shutdownTimeout = settings.shutdownSeconds * 1000000000 ↔ settings.shutdownSeconds ≤ 9223372036) ∧
    (9223372036 < settings.shutdownSeconds → settings.shutdownSeconds ≤ 18446744072 →
      settings.shutdownTimeout < 0) ∧
    ∀ minutes seconds : Nat, 0 < minutes → 0 < seconds → minutes < signedLimit → seconds < signedLimit →
      ∃ other, load [(utf8 "RATE_LIMIT_CLEANUP_INTERVAL",Bytes.ofNat minutes),
          (utf8 "SHUTDOWN_TIMEOUT",Bytes.ofNat seconds)] [] = .ok other ∧
        other.settings.cleanupMinutes = minutes ∧ other.settings.shutdownSeconds = seconds := by
  intro settings limits
  obtain ⟨someMinutes,someSeconds⟩ := load_positive environment files loaded ok
  obtain ⟨interval,intervalPos,intervalNeg⟩ :=
    wrap64_mul 60000000000 153722867 settings.cleanupMinutes someMinutes (by decide) (by decide) (by decide)
  obtain ⟨timeout,timeoutPos,timeoutNeg⟩ :=
    wrap64_mul 1000000000 9223372036 settings.shutdownSeconds someSeconds (by decide) (by decide) (by decide)
  refine ⟨⟨fun holds => ?_,fun ⟨minutes,seconds⟩ => ?_⟩,interval,fun minutes => ?_,fun more most => ?_,timeout,
    timeoutNeg,load_numbers⟩
  · exact ⟨interval.mp holds.interval_eq,timeout.mp holds.timeout_eq⟩
  · exact ⟨intervalPos minutes,interval.mpr minutes,timeoutPos seconds,timeout.mpr seconds⟩
  · have positive : 0 < settings.cleanupInterval := intervalPos minutes
    simp only [limits,Limiter.Settings.clamped,if_neg (Int.not_le.mpr positive)]
    exact Int.toNat_of_nonneg positive.le
  · have negative : settings.cleanupInterval < 0 := intervalNeg more most
    exact ⟨negative,if_pos negative.le⟩

/-- The largest interval that is true, with a timeout of one second too many. -/
theorem durations_true_iff_last :
    ∃ loaded, load [(utf8 "RATE_LIMIT_CLEANUP_INTERVAL",utf8 "153722867"),
        (utf8 "SHUTDOWN_TIMEOUT",utf8 "9223372037")] [] = .ok loaded ∧
      loaded.settings.cleanupInterval = 9223372020000000000 ∧ loaded.settings.shutdownTimeout < 0 ∧
      ¬loaded.settings.TrueDurations := by
  have numbers : (load [(utf8 "RATE_LIMIT_CLEANUP_INTERVAL",utf8 "153722867"),
      (utf8 "SHUTDOWN_TIMEOUT",utf8 "9223372037")] []).toOption.map
        (fun loaded => (loaded.settings.cleanupMinutes,loaded.settings.shutdownSeconds)) =
      some (153722867,9223372037) := by decide +kernel
  cases loading : load [(utf8 "RATE_LIMIT_CLEANUP_INTERVAL",utf8 "153722867"),
      (utf8 "SHUTDOWN_TIMEOUT",utf8 "9223372037")] [] with
  | error faults => simp [loading,Except.toOption] at numbers
  | ok loaded =>
    obtain ⟨minutes,seconds⟩ : loaded.settings.cleanupMinutes = 153722867 ∧
        loaded.settings.shutdownSeconds = 9223372037 := by simpa [loading,Except.toOption] using numbers
    obtain ⟨whole,interval,_,_,_,negative,_⟩ := durations_true_iff _ _ loaded loading
    refine ⟨loaded,rfl,?_,negative (by omega) (by omega),fun holds => ?_⟩
    · rw [interval.mpr (by omega),minutes]
      rfl
    · have within := (whole.mp holds).2
      omega

/-- One minute and one second more than fit: both durations are loaded as negative numbers. -/
theorem load_negative_durations :
    ∃ loaded, load [(utf8 "RATE_LIMIT_CLEANUP_INTERVAL",utf8 "153722868"),
        (utf8 "SHUTDOWN_TIMEOUT",utf8 "9223372037")] [] = .ok loaded ∧
      loaded.settings.cleanupInterval = -9223371993709551616 ∧
      loaded.settings.shutdownTimeout = -9223372036709551616 ∧ ¬loaded.settings.TrueDurations := by
  have durations : (load [(utf8 "RATE_LIMIT_CLEANUP_INTERVAL",utf8 "153722868"),
      (utf8 "SHUTDOWN_TIMEOUT",utf8 "9223372037")] []).toOption.map
        (fun loaded => (loaded.settings.cleanupInterval,loaded.settings.shutdownTimeout)) =
      some (-9223371993709551616,-9223372036709551616) := by decide +kernel
  cases loading : load [(utf8 "RATE_LIMIT_CLEANUP_INTERVAL",utf8 "153722868"),
      (utf8 "SHUTDOWN_TIMEOUT",utf8 "9223372037")] [] with
  | error faults => simp [loading,Except.toOption] at durations
  | ok loaded =>
    obtain ⟨interval,timeout⟩ : loaded.settings.cleanupInterval = -9223371993709551616 ∧
        loaded.settings.shutdownTimeout = -9223372036709551616 := by
      simpa [loading,Except.toOption] using durations
    refine ⟨loaded,rfl,interval,timeout,fun holds => ?_⟩
    have positive := holds.interval_pos
    omega

end Settings
end SqlTidy
