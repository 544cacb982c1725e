import Extractor.RenderAllowlist

/-!
# The case of the render allowlist

The specification compares hosts with the entries of `render.allowed_hosts` without regard to ASCII
case. `host_allowed` of `services/extractor/src/escalation.rs` folds the host only, and
`validate_render` accepts entries in any case, so an entry with a capital letter permits nothing.
What it never does is to permit a host that the folded comparison refuses.

## Main definitions

* `Escalation.CaseInsensitive`: the answer for a host and a list does not depend on their case.

## Main results

* `Escalation.hostAllowed_eq_true_iff`: what a host is compared with.
* `Escalation.caseInsensitive_iff`: when the answer is the one of the specification.
-/

namespace Extractor.Escalation

/-- The same text, up to ASCII case. -/
def Recased (s t : String) : Prop :=
  Text.eqIgnoreAsciiCase s.toList t.toList = true

/-- The same host, up to ASCII case. -/
def HostRecased : Option String → Option String → Prop
  | some s, some t => Recased s t
  | none, none => True
  | _, _ => False

/-- **The allowlist does not regard case**, for one host and one list: the answer is the same
however the two are written, an entry permits the host that it names, and a host that no entry names
is never escalated. -/
structure CaseInsensitive (host : Option String) (allowedHosts : List String) : Prop where
  recase : ∀ host' allowedHosts', HostRecased host host' →
    List.Forall₂ Recased allowedHosts allowedHosts' →
      hostAllowed host' allowedHosts' = hostAllowed host allowedHosts
  permits : Listed allowedHosts host → hostAllowed host allowedHosts = true
  refuses : ∀ inputs : Inputs, inputs.host = host → inputs.config.allowedHosts = allowedHosts →
    allowedHosts ≠ [] → ¬ Listed allowedHosts host → decide inputs ≠ .escalate

variable {host host' : Option String} {allowedHosts allowedHosts' : List String}

/-! ### Case -/

theorem recased_iff {s t : String} :
    Recased s t ↔ Text.asciiLower s.toList = Text.asciiLower t.toList := by
  rw [Recased, Text.eqIgnoreAsciiCase, beq_iff_eq]

/-- A text in capital letters. -/
def capital (s : String) : String := String.ofList (s.toList.map Char.toUpper)

theorem asciiLower_capital (s : String) :
    Text.asciiLower (capital s).toList = Text.asciiLower s.toList := by
  rw [capital, String.toList_ofList, Text.asciiLower, Text.asciiLower, List.map_map]
  exact List.map_congr_left fun c _ => Text.toLower_toUpper c

/-- A text in lower case. -/
def lower (s : String) : String := String.ofList (Text.asciiLower s.toList)

theorem recased_capital (s : String) : Recased s (capital s) :=
  recased_iff.mpr (asciiLower_capital s).symm

theorem recased_lower (s : String) : Recased s (lower s) := by
  rw [recased_iff, lower, String.toList_ofList, Text.asciiLower_asciiLower]

theorem forall₂_map {f : String → String} (h : ∀ s, Recased s (f s)) (texts : List String) :
    List.Forall₂ Recased texts (texts.map f) := by
  induction texts with
  | nil => exact .nil
  | cons s texts ih => exact .cons (h s) ih

/-- Capital letters are never those of a folded text with a letter. -/
theorem capital_ne {s name : String} {c : Char} (hc : c ∈ name.toList) (halpha : c.isAlpha = true) :
    (capital s).toList ≠ Text.asciiLower name.toList := by
  intro heq
  have hmem : c.toLower ∈ (capital s).toList := by
    rw [heq]
    exact List.mem_map_of_mem hc
  rw [capital, String.toList_ofList] at hmem
  obtain ⟨d, -, hd⟩ := List.mem_map.mp hmem
  exact Text.toLower_ne_toUpper halpha hd.symm

/-! ### What is compared -/

/-- **A host is permitted** by an empty list, or by an entry that is its lower-case text. -/
theorem hostAllowed_eq_true_iff :
    hostAllowed host allowedHosts = true ↔ allowedHosts = [] ∨
      ∃ name, host = some name ∧ ∃ entry ∈ allowedHosts,
        entry.toList = Text.asciiLower name.toList := by
  cases host with
  | none => simp [hostAllowed]
  | some name => simp [hostAllowed]

/-- The case of the host alone does not matter. -/
theorem hostAllowed_of_hostRecased (h : HostRecased host host') :
    hostAllowed host' allowedHosts = hostAllowed host allowedHosts := by
  cases host with
  | none =>
      cases host' with
      | none => rfl
      | some t => exact h.elim
  | some s =>
      cases host' with
      | none => exact h.elim
      | some t => rw [hostAllowed, hostAllowed, recased_iff.mp h]

/-- A permitted host is listed, unless the list is empty; no other host is escalated. -/
theorem decide_ne_escalate {inputs : Inputs} (hlist : inputs.config.allowedHosts ≠ [])
    (h : ¬ Listed inputs.config.allowedHosts inputs.host) : decide inputs ≠ .escalate := by
  have hrefused : hostAllowed inputs.host inputs.config.allowedHosts = false :=
    Bool.eq_false_iff.mpr fun hallowed => h (listed_of_hostAllowed hlist hallowed)
  simp only [decide, hrefused, Bool.not_false, if_true]
  split_ifs <;> simp

/-! ### Where case does not matter -/

/-- A host without letters is compared as the specification says. -/
theorem hostAllowed_of_no_letter {name name' : String}
    (hletter : ∀ c ∈ name.toList, c.isAlpha = false) (hhost : Recased name name')
    (h : List.Forall₂ Recased allowedHosts allowedHosts') :
    hostAllowed (some name') allowedHosts' = hostAllowed (some name) allowedHosts := by
  have hfolded : Text.asciiLower name.toList = name.toList :=
    Text.eq_of_asciiLower_eq (Text.asciiLower_asciiLower _) hletter
  have hname : Text.asciiLower name'.toList = name.toList := by
    rw [← recased_iff.mp hhost, hfolded]
  have hentries : allowedHosts'.any (fun allowed => allowed.toList == name.toList) =
      allowedHosts.any fun allowed => allowed.toList == name.toList := by
    induction h with
    | nil => rfl
    | @cons entry entry' entries entries' hentry hrest ih =>
        have hsame : entry'.toList = name.toList ↔ entry.toList = name.toList := by
          rw [recased_iff] at hentry
          constructor
          · intro heq
            refine Text.eq_of_asciiLower_eq ?_ hletter
            rw [hentry, heq]
          · intro heq
            refine Text.eq_of_asciiLower_eq ?_ hletter
            rw [← hentry, heq]
        have hbeq : (entry'.toList == name.toList) = (entry.toList == name.toList) :=
          Bool.eq_iff_iff.mpr (by simpa using hsame)
        rw [List.any_cons, List.any_cons, ih, hbeq]
  rw [hostAllowed, hostAllowed, hname, hfolded, hentries]
  cases h with
  | nil => rfl
  | cons hentry hrest => rfl

/-- Recasing the entries of a host with a letter can take its permission away. -/
theorem no_letter_of_recase {name : String}
    (h : ∀ allowedHosts', List.Forall₂ Recased allowedHosts allowedHosts' →
      hostAllowed (some name) allowedHosts' = hostAllowed (some name) allowedHosts)
    (hlist : allowedHosts ≠ []) (hlisted : Listed allowedHosts (some name)) :
    ∀ c ∈ name.toList, c.isAlpha = false := by
  intro c hc
  by_contra halpha
  rw [Bool.not_eq_false] at halpha
  obtain ⟨_, hname, entry, hentry, heq⟩ := hlisted
  obtain rfl := Option.some.inj hname
  -- in lower case the entry permits the host, in capital letters no entry does
  have hlower : hostAllowed (some name) (allowedHosts.map lower) = true := by
    refine hostAllowed_eq_true_iff.mpr
      (Or.inr ⟨name, rfl, lower entry, List.mem_map_of_mem hentry, ?_⟩)
    rw [lower, String.toList_ofList, recased_iff.mp heq]
  have hcapital : hostAllowed (some name) (allowedHosts.map capital) = false := by
    refine Bool.eq_false_iff.mpr fun htrue => ?_
    rcases hostAllowed_eq_true_iff.mp htrue with hnil | ⟨_, hname, written, hwritten, heq⟩
    · exact hlist (List.map_eq_nil_iff.mp hnil)
    · obtain rfl := Option.some.inj hname
      obtain ⟨entry, -, rfl⟩ := List.mem_map.mp hwritten
      exact capital_ne hc halpha heq
  rw [h _ (forall₂_map recased_lower allowedHosts),
    ← h _ (forall₂_map recased_capital allowedHosts), hcapital] at hlower
  cases hlower

/-- A list of the same length. -/
theorem ne_nil_of_forall₂ (h : List.Forall₂ Recased allowedHosts allowedHosts')
    (hlist : allowedHosts ≠ []) : allowedHosts' ≠ [] := by
  rintro rfl
  cases h
  exact hlist rfl

/-- Recasing entries and host lists no other host. -/
theorem listed_of_recased (hhost : HostRecased host host')
    (h : List.Forall₂ Recased allowedHosts allowedHosts') (hlisted : Listed allowedHosts' host') :
    Listed allowedHosts host := by
  obtain ⟨name', rfl, entry', hentry', heq⟩ := hlisted
  cases host with
  | none => exact hhost.elim
  | some name =>
      obtain ⟨i, hi, rfl⟩ := List.getElem_of_mem hentry'
      obtain ⟨hlength, hget⟩ := List.forall₂_iff_get.mp h
      have hrecased := hget i (hlength ▸ hi) hi
      refine ⟨name, rfl, _, List.getElem_mem (hlength ▸ hi), recased_iff.mpr ?_⟩
      exact (recased_iff.mp hrecased).trans
        ((recased_iff.mp heq).trans (recased_iff.mp hhost).symm)

/-- **When case does not matter**: the list is empty, no entry names the host, or the host has no
letter. -/
theorem caseInsensitive_iff (host : Option String) (allowedHosts : List String) :
    CaseInsensitive host allowedHosts ↔
      allowedHosts = [] ∨ ¬ Listed allowedHosts host ∨
        ∃ name, host = some name ∧ ∀ c ∈ name.toList, c.isAlpha = false := by
  constructor
  · intro h
    by_cases hlist : allowedHosts = []
    · exact Or.inl hlist
    by_cases hlisted : Listed allowedHosts host
    · obtain ⟨name, rfl, -⟩ := id hlisted
      refine Or.inr (Or.inr ⟨name, rfl, no_letter_of_recase (fun allowedHosts' hrecased => ?_)
        hlist hlisted⟩)
      exact h.recase (some name) allowedHosts' (recased_iff.mpr rfl) hrecased
    · exact Or.inr (Or.inl hlisted)
  · intro h
    have hrefuses : ∀ inputs : Inputs, inputs.host = host →
        inputs.config.allowedHosts = allowedHosts → allowedHosts ≠ [] →
        ¬ Listed allowedHosts host → decide inputs ≠ .escalate := by
      rintro inputs rfl rfl
      exact decide_ne_escalate
    rcases h with rfl | hunlisted | ⟨name, rfl, hletter⟩
    · refine ⟨fun host' allowedHosts' hhost hrecased => ?_, fun _ => ?_, hrefuses⟩
      · cases hrecased
        exact hostAllowed_of_hostRecased hhost
      · exact hostAllowed_eq_true_iff.mpr (Or.inl rfl)
    · refine ⟨fun host' allowedHosts' hhost hrecased => ?_, fun hlisted => absurd hlisted hunlisted,
        hrefuses⟩
      by_cases hlist : allowedHosts = []
      · subst hlist
        cases hrecased
        exact hostAllowed_of_hostRecased hhost
      · have hrefused : hostAllowed host allowedHosts = false := Bool.eq_false_iff.mpr
          fun hallowed => hunlisted (listed_of_hostAllowed hlist hallowed)
        rw [hrefused]
        refine Bool.eq_false_iff.mpr fun hallowed => hunlisted ?_
        exact listed_of_recased hhost hrecased
          (listed_of_hostAllowed (ne_nil_of_forall₂ hrecased hlist) hallowed)
    · refine ⟨fun host' allowedHosts' hhost hrecased => ?_, fun hlisted => ?_, hrefuses⟩
      · cases host' with
        | none => exact hhost.elim
        | some name' => exact hostAllowed_of_no_letter hletter hhost hrecased
      · obtain ⟨_, hname, entry, hentry, heq⟩ := hlisted
        obtain rfl := Option.some.inj hname
        have hfolded : Text.asciiLower name.toList = name.toList :=
          Text.eq_of_asciiLower_eq (Text.asciiLower_asciiLower _) hletter
        refine hostAllowed_eq_true_iff.mpr (Or.inr ⟨name, rfl, entry, hentry, ?_⟩)
        rw [hfolded]
        exact Text.eq_of_asciiLower_eq (recased_iff.mp heq) hletter

/-! ### An entry with a capital letter -/

/-- Rendering is enabled for one host, written with a capital letter. -/
def capitalConfig : ExtractorConfig :=
  { exampleRenderConfig with
    render := { exampleRenderConfig.render with allowedHosts := ["Example.com"] } }

/-- The configuration is accepted, and its entry does not permit the host that it names. -/
theorem not_caseInsensitive_capital :
    Accepted exampleConfigLib capitalConfig ∧
      hostAllowed (some "example.com") capitalConfig.render.allowedHosts = false ∧
      hostAllowed (some "example.com") ["example.com"] = true ∧
      ¬ CaseInsensitive (some "example.com") capitalConfig.render.allowedHosts := by
  refine ⟨exampleRenderConfig_accepted.with_render (by decide), by decide, by decide, fun h => ?_⟩
  have hpermitted := h.permits ⟨"example.com", rfl, "Example.com", List.mem_cons_self, by decide⟩
  revert hpermitted
  decide

end Extractor.Escalation
