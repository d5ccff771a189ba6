import Mathlib.Data.List.Induction
import Mathlib.Data.List.Nodup
import Runbooks.Failure

namespace Runbooks

/-- A text mentions another that stands in it as it is. -/
def Mentions (text part : String) : Prop :=
  part.toList <:+: text.toList

/-- A text with the causes that are told behind it. -/
def followedBy (message : String) (told : List String) : String :=
  message ++ String.join (told.map (": " ++ ·))

/-- What a description tells of the causes of a failure. -/
structure Tells (message : String) (causes told : List String) : Prop where
  text_eq : describeTexts message causes = followedBy message told
  told_sublist : told.Sublist causes
  told_nodup : told.Nodup
  /-- Nothing is told that the text before it mentions. -/
  told_unmentioned : ∀ before cause, before ++ [cause] <+: told →
    ¬Mentions (followedBy message before) cause
  /-- Nothing is left out but what the text before it mentions. -/
  untold_mentioned : ∀ before cause, before ++ [cause] <+: causes → cause ∉ told →
    Mentions (describeTexts message before) cause
  mentions : ∀ cause ∈ causes, Mentions (describeTexts message causes) cause

theorem occursIn_eq_true_iff (part whole : List Char) :
    occursIn part whole = true ↔ part <:+: whole := by
  induction whole with
  | nil =>
    rw [occursIn, Bool.or_false, List.isPrefixOf_iff_prefix, List.prefix_nil, List.infix_nil]
  | cons c rest ih =>
    rw [occursIn, Bool.or_eq_true, List.isPrefixOf_iff_prefix, ih, List.infix_cons_iff]

instance (text part : String) : Decidable (Mentions text part) :=
  decidable_of_iff _ (occursIn_eq_true_iff part.toList text.toList)

section Texts

variable {text part : String}

theorem Mentions.append (h : Mentions text part) (rest : String) : Mentions (text ++ rest) part := by
  rw [Mentions, String.toList_append]
  exact List.infix_append_of_infix_left h

theorem mentions_append_self (text part : String) : Mentions (text ++ part) part := by
  rw [Mentions, String.toList_append]
  exact List.infix_append_right

end Texts

section Steps

variable (message : String) (causes told : List String) (cause : String)

@[simp] theorem followedBy_nil : followedBy message [] = message := by
  rw [followedBy, List.map_nil, String.join_nil, String.append_empty]

theorem followedBy_append_singleton :
    followedBy message (told ++ [cause]) = followedBy message told ++ ": " ++ cause := by
  rw [followedBy, List.map_append, String.join_append, List.map_singleton, String.join_cons,
    String.join_nil, String.append_empty, followedBy, String.append_assoc, String.append_assoc]

theorem mentioning_append_singleton (said : List Char) (causes : List (List Char))
    (cause : List Char) :
    mentioning said (causes ++ [cause]) =
      if occursIn cause (mentioning said causes) then mentioning said causes
      else mentioning said causes ++ [':', ' '] ++ cause := by
  induction causes generalizing said with
  | nil => rfl
  | cons first rest ih =>
    rw [List.cons_append, mentioning, mentioning]
    split <;> exact ih _

@[simp] theorem describeTexts_nil : describeTexts message [] = message :=
  String.ofList_toList

/-- One more cause is held against all that has been said because of those before it. -/
theorem describeTexts_append_singleton :
    describeTexts message (causes ++ [cause]) =
      if Mentions (describeTexts message causes) cause then describeTexts message causes
      else describeTexts message causes ++ ": " ++ cause := by
  have hoccurs : occursIn cause.toList (mentioning message.toList (causes.map String.toList)) ↔
      Mentions (describeTexts message causes) cause := by
    rw [occursIn_eq_true_iff, Mentions, describeTexts, String.toList_ofList]
  rw [describeTexts, List.map_append, List.map_singleton, mentioning_append_singleton]
  by_cases h : Mentions (describeTexts message causes) cause
  · rw [if_pos (hoccurs.mpr h), if_pos h]
    rfl
  · rw [if_neg (mt hoccurs.mp h), if_neg h, String.ofList_append, String.ofList_append,
      String.ofList_toList]
    rfl

end Steps

section Telling

variable {message cause : String} {causes told : List String}

theorem prefix_append_singleton_iff {before items : List String} {item last : String} :
    before ++ [item] <+: items ++ [last] ↔
      before = items ∧ item = last ∨ before ++ [item] <+: items := by
  rw [List.prefix_concat_iff, List.append_singleton_inj]

theorem mentions_behind_colon {text : String} {items : List String}
    (h : ∀ item ∈ items, Mentions text item) :
    ∀ item ∈ items ++ [cause], Mentions (text ++ ": " ++ cause) item := by
  rw [List.forall_mem_append, List.forall_mem_singleton]
  exact ⟨fun item hitem => ((h item hitem).append _).append _, mentions_append_self _ _⟩

theorem mentions_followedBy (message : String) (told : List String) :
    ∀ cause ∈ told, Mentions (followedBy message told) cause := by
  induction told using List.reverseRecOn with
  | nil => exact fun _ h => absurd h List.not_mem_nil
  | append_singleton told last ih =>
    rw [followedBy_append_singleton]
    exact mentions_behind_colon ih

theorem tells_nil (message : String) : Tells message [] [] where
  text_eq := (describeTexts_nil message).trans (followedBy_nil message).symm
  told_sublist := List.Sublist.refl []
  told_nodup := List.nodup_nil
  told_unmentioned _ _ h := absurd (List.prefix_nil.mp h) (by simp)
  untold_mentioned _ _ h := absurd (List.prefix_nil.mp h) (by simp)
  mentions _ h := absurd h List.not_mem_nil

namespace Tells

theorem passOver (h : Tells message causes told)
    (hcause : Mentions (describeTexts message causes) cause) :
    Tells message (causes ++ [cause]) told := by
  have htext : describeTexts message (causes ++ [cause]) = describeTexts message causes := by
    rw [describeTexts_append_singleton, if_pos hcause]
  refine ⟨htext.trans h.text_eq, h.told_sublist.trans (List.sublist_append_left _ _), h.told_nodup,
    h.told_unmentioned, ?_, ?_⟩
  · intro before item hbefore hitem
    rcases prefix_append_singleton_iff.mp hbefore with ⟨rfl, rfl⟩ | hbefore
    · exact hcause
    · exact h.untold_mentioned before item hbefore hitem
  · rw [htext, List.forall_mem_append, List.forall_mem_singleton]
    exact ⟨h.mentions, hcause⟩

theorem tell (h : Tells message causes told)
    (hcause : ¬Mentions (describeTexts message causes) cause) :
    Tells message (causes ++ [cause]) (told ++ [cause]) := by
  have htext : describeTexts message (causes ++ [cause]) =
      describeTexts message causes ++ ": " ++ cause := by
    rw [describeTexts_append_singleton, if_neg hcause]
  have huntold : cause ∉ told := by
    intro htold
    rw [h.text_eq] at hcause
    exact hcause (mentions_followedBy message told cause htold)
  refine ⟨?_, h.told_sublist.append (List.Sublist.refl _), ?_, ?_, ?_, ?_⟩
  · rw [htext, h.text_eq, followedBy_append_singleton]
  · rw [← List.concat_eq_append]
    exact List.Nodup.concat huntold h.told_nodup
  · intro before item hbefore
    rcases prefix_append_singleton_iff.mp hbefore with ⟨rfl, rfl⟩ | hbefore
    · rw [← h.text_eq]
      exact hcause
    · exact h.told_unmentioned before item hbefore
  · intro before item hbefore hitem
    rw [List.mem_append, List.mem_singleton, not_or] at hitem
    rcases prefix_append_singleton_iff.mp hbefore with ⟨-, rfl⟩ | hbefore
    · exact absurd rfl hitem.2
    · exact h.untold_mentioned before item hbefore hitem.1
  · rw [htext]
    exact mentions_behind_colon h.mentions

end Tells

theorem exists_tells (message : String) (causes : List String) :
    ∃ told, Tells message causes told := by
  -- The last cause comes first: whether it is told depends on what those before it have left.
  induction causes using List.reverseRecOn with
  | nil => exact ⟨[], tells_nil message⟩
  | append_singleton causes cause ih =>
    obtain ⟨told, h⟩ := ih
    by_cases hcause : Mentions (describeTexts message causes) cause
    · exact ⟨told, h.passOver hcause⟩
    · exact ⟨told ++ [cause], h.tell hcause⟩

theorem mentions_describeTexts (h : cause ∈ causes) :
    Mentions (describeTexts message causes) cause := by
  obtain ⟨told, htells⟩ := exists_tells message causes
  exact htells.mentions cause h

theorem describeTexts_eq_self_iff (message : String) (causes : List String) :
    describeTexts message causes = message ↔ ∀ cause ∈ causes, Mentions message cause := by
  constructor
  · intro h cause hcause
    have hmentions : Mentions (describeTexts message causes) cause := mentions_describeTexts hcause
    rwa [h] at hmentions
  · intro h
    obtain ⟨told, htells⟩ := exists_tells message causes
    rw [htells.text_eq]
    cases told with
    | nil => exact followedBy_nil message
    | cons cause rest =>
      have hfirst := htells.told_unmentioned [] cause (List.prefix_append [cause] rest)
      rw [followedBy_nil] at hfirst
      exact absurd (h cause (htells.told_sublist.subset List.mem_cons_self)) hfirst

end Telling

/-- A description begins with the text of what failed and mentions every cause: behind that text it
tells those causes, in their order, that nothing before them mentions, none of them twice. It is that
text alone just where that text mentions every cause. -/
theorem describeTexts_tells_causes (message : String) (causes : List String) :
    (∃ told, Tells message causes told) ∧
      (describeTexts message causes = message ↔ ∀ cause ∈ causes, Mentions message cause) :=
  ⟨exists_tells message causes, describeTexts_eq_self_iff message causes⟩

/-- A cause within a cause is passed over, but not the other way round. -/
example : describeTexts "a" ["b: c", "", "c", "c: d", "b: c"] = "a: b: c: c: d" := by
  decide

namespace Failure

theorem mentions_describe_inContext (context : String) (f : Failure) :
    Mentions (f.inContext context).describe f.message ∧
      ∀ cause ∈ f.causes, Mentions (f.inContext context).describe cause := by
  constructor
  · exact mentions_describeTexts List.mem_cons_self
  · intro cause hcause
    exact mentions_describeTexts (List.mem_cons_of_mem _ hcause)

/-- Only a source that cannot be read and a failure in a context have causes that their own texts
may leave open. -/
theorem describe_eq_message_or (f : Failure) :
    f.describe = f.message ∨ (∃ path message causes, f = source path message causes) ∨
      ∃ message causes, f = other message causes := by
  cases f with
  | source path message causes => exact .inr (.inl ⟨path, message, causes, rfl⟩)
  | other message causes => exact .inr (.inr ⟨message, causes, rfl⟩)
  | invalid | idleStep | missingEngine | failedEngine | setting => exact .inl (describeTexts_nil _)
  | unrendered cause | unwritten path cause | system cause =>
    left
    refine (describeTexts_eq_self_iff _ _).mpr fun other hother => ?_
    rw [List.mem_singleton.mp hother]
    exact mentions_append_self _ _

end Failure

end Runbooks
