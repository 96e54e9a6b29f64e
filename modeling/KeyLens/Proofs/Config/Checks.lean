import KeyLens.Config.Basic

/-!
# Checked configurations

A configuration that can be used has no mistakes in its patterns: neither in what it ignores nor in
what it includes by a pattern. The default configuration can be used.
-/

namespace KeyLens.Config

/-- If checks in turn succeed, the first one does and so do those behind it. -/
theorem eq_ok_of_bind {first rest : Except Invalid Unit}
    (h : (first >>= fun _ => rest) = .ok ()) : first = .ok () ∧ rest = .ok () := by
  cases first with
  | error failure => cases h
  | ok value => exact ⟨rfl, h⟩

/-- If a check of all texts succeeds, the check of each does. -/
theorem eq_ok_of_forM {check : String → Except Invalid Unit} {texts : List String}
    (h : texts.forM check = .ok ()) : ∀ text ∈ texts, check text = .ok () := by
  induction texts with
  | nil => exact nofun
  | cons text rest ih =>
    obtain ⟨hfirst, hrest⟩ := eq_ok_of_bind h
    exact List.forall_mem_cons.mpr ⟨hfirst, ih hrest⟩

/-- A text that is checked as a pattern is one. -/
theorem exists_of_checkPattern {field : Field} {text : String}
    (h : checkPattern field text = .ok ()) : ∃ pattern, Glob.Pattern.parse text = .ok pattern := by
  unfold checkPattern at h
  split at h
  · next pattern hpattern => exact ⟨pattern, hpattern⟩
  · cases h

/-- The patterns of a configuration that can be used have no mistakes. -/
theorem exists_pattern_of_check {config : Config} (h : config.check = .ok ()) :
    (∀ entry ∈ config.ignores, ∃ pattern, Glob.Pattern.parse entry = .ok pattern) ∧
      ∀ text ∈ config.includes, Glob.Pattern.isWild text = true →
        ∃ pattern, Glob.Pattern.parse text = .ok pattern := by
  obtain ⟨hignores, hincludes⟩ :=
    eq_ok_of_bind (eq_ok_of_bind (eq_ok_of_bind (eq_ok_of_bind h).2).2).2
  exact ⟨fun entry hentry => exists_of_checkPattern (eq_ok_of_forM hignores entry hentry),
    fun text htext hwild => exists_of_checkPattern
      (eq_ok_of_forM hincludes text (List.mem_filter.mpr ⟨htext, hwild⟩))⟩

/-- A configuration can be used if no check of it fails. -/
theorem check_eq_ok {config : Config} (h : config.check.isOk = true) : config.check = .ok () := by
  cases hcheck : config.check with
  | error reason =>
    rw [hcheck] at h
    cases h
  | ok value => rfl

/-- The default configuration can be used. -/
theorem check_default : Config.default.check = .ok () :=
  check_eq_ok (by decide +kernel)

end KeyLens.Config
