import BankingAi.Agents.KycDecision

/-!
# Dates of birth in the supported formats

`parseDate` tries the formats in order. A date written month first is also read day first when both
of its numbers can be months, and that reading wins.
-/

namespace BankingAi.KycAgent
open Strptime

def yearFirst : List Directive := [.year, .lit '-', .month, .lit '-', .day]

def monthFirst : List Directive := [.month, .lit '/', .day, .lit '/', .year]

/-- The other order of day and month comes first and is another date. -/
def Misread (fmt : List Directive) (d : Date) : Prop := fmt = monthFirst ∧ d.day ≤ 12 ∧ d.day ≠ d.month

/-- A date as an applicant writes it, with white space around it. -/
def written (fmt : List Directive) (d : Date) (before after : String) : String :=
  before ++ String.ofList (strftime d fmt) ++ after

section parse
variable {d : Date} {fmt : List Directive} {before after : String}

theorem isSpace_digit {n : ℕ} (h : n < 10) : Str.isSpace (digit n) = false := by
  interval_cases n <;> decide

theorem trimmed_strftime (hfmt : fmt ∈ dateFormats) : Str.Trimmed (strftime d fmt) := by
  obtain ⟨-, hyear, -, hmonth, -, -⟩ := d.valid
  have hday := d.day_le
  simp only [dateFormats, List.mem_cons, List.not_mem_nil, or_false] at hfmt
  rcases hfmt with rfl | rfl | rfl <;>
    exact ⟨by simp [strftime, pad2, pad4, isSpace_digit, show d.year / 1000 < 10 by omega,
        show d.day / 10 < 10 by omega, show d.month / 10 < 10 by omega],
      by simp [strftime, pad2, pad4, isSpace_digit, Nat.mod_lt]⟩

theorem parseDate_written (hfmt : fmt ∈ dateFormats) (hb : ∀ c ∈ before.toList, Str.isSpace c = true)
    (ha : ∀ c ∈ after.toList, Str.isSpace c = true) :
    parseDate (written fmt d before after) = dateFormats.findSome? fun f => strptime f (strftime d fmt) := by
  have hstrip : Str.stripChars (written fmt d before after).toList = strftime d fmt := by
    rw [written, String.toList_append, String.toList_append, String.toList_ofList,
      Str.stripChars_append hb ha, Str.stripChars_of_trimmed (trimmed_strftime hfmt)]
  rw [parseDate, hstrip]

/-- A written date is read as itself unless it is misread. -/
theorem parseDate_written_eq_iff (hfmt : fmt ∈ dateFormats) (hb : ∀ c ∈ before.toList, Str.isSpace c = true)
    (ha : ∀ c ∈ after.toList, Str.isSpace c = true) :
    parseDate (written fmt d before after) = some d ↔ ¬ Misread fmt d := by
  obtain ⟨-, hy, hm, hm', hd, -⟩ := d.valid
  have hd' := d.day_le
  rw [parseDate_written hfmt hb ha]
  simp only [dateFormats, List.mem_cons, List.not_mem_nil, or_false] at hfmt
  rcases hfmt with rfl | rfl | rfl
  · -- the year in front
    have hread := strptime_year_first hy hm hm' hd hd'
    simp only [dateFormats, strftime, List.findSome?_cons, hread, Date.of?_self]
    simp [Misread, monthFirst]
  · -- the day in front: the first format needs a year there
    have hfirst := @strptime_year_first_slash d.day (pad2 d.month ++ '/' :: (pad4 d.year ++ []))
    have hread := strptime_day_first hy hm (by omega) hd hd'
    rw [if_pos hm'] at hread
    simp only [dateFormats, strftime, List.findSome?_cons, hfirst, hread, Date.of?_self]
    simp [Misread, monthFirst]
  · -- the month in front
    have hfirst := @strptime_year_first_slash d.month (pad2 d.day ++ '/' :: (pad4 d.year ++ []))
    have hswapped := strptime_day_first hy hd hd' hm (by omega)
    have hread := strptime_month_first hy hm (by omega) hd hd'
    rw [if_pos hm'] at hread
    simp only [dateFormats, strftime, List.findSome?_cons, hfirst]
    by_cases hday : d.day ≤ 12
    · obtain ⟨e, he, hsame⟩ := Date.of?_swap hday
      rw [if_pos hday, he] at hswapped
      rw [hswapped]
      simp [Misread, monthFirst, hday, hsame]
    · rw [if_neg hday] at hswapped
      rw [hswapped, hread, Date.of?_self]
      simp [Misread, hday]

end parse

/-! ### The decision does not depend on the format -/

section congr
variable {repr : String → String} {clock : Date} {p q : KycInput}

theorem run_congr (htoday : p.today = q.today) (hdoc : p.documentFields = q.documentFields)
    (htext : ∀ name ≠ "date_of_birth", text (lowerKeys p.profile) name = text (lowerKeys q.profile) name)
    (hempty : text (lowerKeys p.profile) "date_of_birth" = "" ↔ text (lowerKeys q.profile) "date_of_birth" = "")
    (hdob : ∀ today, checkDob repr today (lowerKeys p.profile) = checkDob repr today (lowerKeys q.profile)) :
    run repr clock p = run repr clock q := by
  have hmissing : requiredProfileFields.filter (text (lowerKeys p.profile) · = "") =
      requiredProfileFields.filter (text (lowerKeys q.profile) · = "") := by
    refine List.filter_congr fun name _ => ?_
    by_cases hname : name = "date_of_birth"
    · simp [hname, hempty]
    · rw [htext name hname]
  simp only [run, hmissing, htoday, hdoc, hdob, htext "full_name" (by decide),
    htext "document_number" (by decide), htext "country" (by decide)]

/-- The applicant's date of birth is the given text. -/
def withDob (payload : KycInput) (dob : String) : KycInput :=
  { payload with profile := payload.profile.set "date_of_birth" dob }

section withDob
variable {payload : KycInput} {a b name : String}

theorem rel_withDob :
    Option.Rel (fun v w => v = w ∨ name = "date_of_birth" ∧ v = a ∧ w = b)
      ((lowerKeys (withDob payload a).profile).get? name) ((lowerKeys (withDob payload b).profile).get? name) := by
  have hlower : Str.lower "date_of_birth" = "date_of_birth" := by decide +kernel
  refine @Dict.rel_get?_ofList _ _ _ _ (fun name v w => v = w ∨ name = "date_of_birth" ∧ v = a ∧ w = b) _ _ ?_ name
  refine List.forall₂_map_left_iff.2 (List.forall₂_map_right_iff.2 ?_)
  refine (Dict.forall₂_setIn "date_of_birth" a b payload.profile.entries).imp ?_
  rintro ⟨key, v⟩ ⟨key', w⟩ ⟨hkey, hvw⟩
  dsimp only at hkey hvw
  subst hkey
  refine ⟨rfl, hvw.imp_right fun h => ⟨?_, h.2⟩⟩
  rw [h.1, hlower]

theorem text_withDob :
    text (lowerKeys (withDob payload a).profile) name = text (lowerKeys (withDob payload b).profile) name ∨
      name = "date_of_birth" ∧ text (lowerKeys (withDob payload a).profile) name = a ∧
        text (lowerKeys (withDob payload b).profile) name = b := by
  have hr := @rel_withDob payload a b name
  unfold text
  generalize (lowerKeys (withDob payload a).profile).get? name = x at hr ⊢
  generalize (lowerKeys (withDob payload b).profile).get? name = y at hr ⊢
  cases hr with
  | some h => exact h
  | none => exact .inl rfl

theorem run_withDob {d : Date} (ha : parseDate a = some d) (hb : parseDate b = some d) :
    run repr clock (withDob payload a) = run repr clock (withDob payload b) := by
  have hne : a ≠ "" ∧ b ≠ "" := by
    constructor
    · rintro rfl; rw [parseDate_empty] at ha; cases ha
    · rintro rfl; rw [parseDate_empty] at hb; cases hb
  have hother : ∀ name ≠ "date_of_birth", text (lowerKeys (withDob payload a).profile) name =
      text (lowerKeys (withDob payload b).profile) name :=
    fun name hname => text_withDob.resolve_right fun h => hname h.1
  have hdate := @text_withDob payload a b "date_of_birth"
  refine run_congr rfl rfl hother ?_ fun today => ?_
  · rcases hdate with h | ⟨-, h, h'⟩
    · rw [h]
    · rw [h, h']
      exact iff_of_false hne.1 hne.2
  · rcases hdate with h | ⟨-, h, h'⟩
    · rw [checkDob, checkDob, h]
    · simp only [checkDob, h, h', if_neg hne.1, if_neg hne.2, ha, hb]

end withDob

end congr

/-- A date of birth written in a supported format, with white space around it, is read as itself, and
the agent decides as for the same date in the first format, exactly when it is not misread. -/
theorem dob_round_trip_iff (d : Date) (fmt : List Directive) (hfmt : fmt ∈ dateFormats)
    (before after : String) (hb : ∀ c ∈ before.toList, Str.isSpace c = true)
    (ha : ∀ c ∈ after.toList, Str.isSpace c = true) :
    (parseDate (written fmt d before after) = some d ∧
      ∀ repr clock payload, run repr clock (withDob payload (written fmt d before after)) =
        run repr clock (withDob payload (written yearFirst d "" ""))) ↔
      ¬ Misread fmt d := by
  rw [← parseDate_written_eq_iff hfmt hb ha]
  refine ⟨And.left, fun hread => ⟨hread, fun repr clock payload => ?_⟩⟩
  have hfirst : parseDate (written yearFirst d "" "") = some d :=
    (parseDate_written_eq_iff (by simp [yearFirst, dateFormats]) (by simp) (by simp)).2
      fun h => by cases h.1
  exact run_withDob hread hfirst

theorem dob_round_trip_iff_christmas :
    parseDate (written [.day, .lit '/', .month, .lit '/', .year] ⟨1990, 12, 25, by decide⟩ "\t" " ") =
      some ⟨1990, 12, 25, by decide⟩ := by
  have hbefore : ∀ c ∈ "\t".toList, Str.isSpace c = true := by
    intro c hc
    rw [List.mem_singleton.1 (show c ∈ ['\t'] from hc)]
    decide
  have hafter : ∀ c ∈ " ".toList, Str.isSpace c = true := by
    intro c hc
    rw [List.mem_singleton.1 (show c ∈ [' '] from hc)]
    decide
  exact ((dob_round_trip_iff ⟨1990, 12, 25, by decide⟩ _ (by decide) _ _ hbefore hafter).2
    fun h => by cases h.1).1

/-- Someone born on 5 March 2006 who writes the month first is taken for a minor in April 2024. -/
theorem dob_misread :
    parseDate (written monthFirst ⟨2006, 3, 5, by decide⟩ "" "") = some ⟨2006, 5, 3, by decide⟩ ∧
      (run id ⟨2024, 4, 1, by decide⟩ { sampleInput with
        today := none
        profile := sampleInput.profile.set "date_of_birth" "03/05/2006" }).riskLevel = .high ∧
      (run id ⟨2024, 4, 1, by decide⟩ { sampleInput with
        today := none
        profile := sampleInput.profile.set "date_of_birth" "2006-03-05" }).riskLevel = .low := by
  decide +kernel

end BankingAi.KycAgent
