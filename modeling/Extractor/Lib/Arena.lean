import Mathlib.Data.List.Perm.Basic
import Mathlib.Logic.Function.Basic
import Mathlib.Logic.Relation
import Mathlib.Data.Finset.Card
import Mathlib.Data.Finset.Range

/-!
# Ordered trees in an arena

A small library on an arena of nodes that are linked to ordered trees: every node is known by the
number it was created with, and is never removed, only linked and unlinked. It names nothing of
what the nodes carry.

## Main definitions

* `Arena.orphan`, `Arena.detach`, `Arena.link`, `Arena.reparent`: the operations.
* `Arena.Linked`: parents and children agree.
* `Arena.Acyclic`: no node is under itself.
* `Arena.fold`: what stands under a node, from the leaves up.

## Main results

* `Linked.detach`, `Linked.link`, `Linked.reparent`: the operations keep parents and children in
  agreement.
* `acyclic_link_iff`, `acyclic_reparent_iff`: they make a cycle exactly where they put a node under
  one that is under it.
* `Linked.fold_isSome`: every walk ends, where there is no cycle.
* `fold_rel`: related steps make related walks.
* `Linked.mem_preorder_iff`, `Linked.preorder_nodup`: a walk visits what is under a node, once.
-/

/-- Nodes, by their numbers. -/
structure Arena (α : Type*) where
  size : ℕ
  value : ℕ → α
  parent : ℕ → Option ℕ
  children : ℕ → List ℕ

namespace Arena

variable {α β γ : Type*}

/-! ### Operations -/

/-- One node. -/
def new (a : α) : Arena α := ⟨1, fun _ => a, fun _ => none, fun _ => []⟩

/-- A node that stands alone. -/
def orphan (A : Arena α) (a : α) : Arena α :=
  { A with size := A.size + 1, value := Function.update A.value A.size a }

/-- Another value. -/
def modify (A : Arena α) (c : ℕ) (f : α → α) : Arena α :=
  { A with value := Function.update A.value c (f (A.value c)) }

/-- A node is taken from its parent. -/
def detach (A : Arena α) (c : ℕ) : Arena α :=
  match A.parent c with
  | none => A
  | some p =>
      { A with
        parent := Function.update A.parent c none
        children := Function.update A.children p ((A.children p).erase c) }

/-- A node that stands alone becomes a child. -/
def link (A : Arena α) (p c : ℕ) (children : List ℕ) : Arena α :=
  { A with
    parent := Function.update A.parent c (some p)
    children := Function.update A.children p children }

/-- An element in front of another. -/
def putBefore (s c : ℕ) (l : List ℕ) : List ℕ :=
  l.takeWhile (· != s) ++ c :: l.dropWhile (· != s)

/-- The node in front of another. -/
def prevSibling (A : Arena α) (s : ℕ) : Option ℕ :=
  (A.parent s).bind fun p => ((A.children p).takeWhile (· != s)).getLast?

/-- The children of one node become the last children of another. -/
def reparent (A : Arena α) (src dst : ℕ) : Arena α :=
  { A with
    parent := fun c => if c ∈ A.children src then some dst else A.parent c
    children :=
      Function.update (Function.update A.children src []) dst
        (A.children dst ++ A.children src) }

/-! ### Forests -/

/-- No node is under itself. -/
def Acyclic (parent : ℕ → Option ℕ) : Prop :=
  ∃ rank : ℕ → ℕ, ∀ c p, parent c = some p → rank p < rank c

/-- `A.Under x a`: the node `x` is `a`, or stands somewhere under it. -/
def Under (A : Arena α) : ℕ → ℕ → Prop :=
  Relation.ReflTransGen fun c p => A.parent c = some p

/-- **Parents and children agree**: every node is among the children of its parent, once. -/
structure Linked (A : Arena α) : Prop where
  bounded : ∀ c p, A.parent c = some p → c < A.size ∧ p < A.size
  mem_children_iff : ∀ p c, c ∈ A.children p ↔ A.parent c = some p
  nodup : ∀ p, (A.children p).Nodup

variable {A : Arena α} {a : α} {c p s src dst : ℕ}

/-- **Moving a part of a forest** under a node outside of it makes no cycle. -/
theorem Acyclic.move {parent parent' : ℕ → Option ℕ} {S : ℕ → Prop} (h : Acyclic parent)
    (hdst : ¬S dst) (hclosed : ∀ x p, parent x = some p → S p → S x)
    (hmoved : ∀ x p, parent' x = some p → parent x = some p ∨ (S x ∧ p = dst)) :
    Acyclic parent' := by
  classical
  obtain ⟨rank, hrank⟩ := h
  refine ⟨fun x => if S x then rank x + rank dst + 1 else rank x, fun x p hx => ?_⟩
  dsimp only
  rcases hmoved x p hx with hold | ⟨hS, rfl⟩
  · have hlt := hrank x p hold
    by_cases hp : S p
    · rw [if_pos hp, if_pos (hclosed x p hold hp)]
      omega
    · rw [if_neg hp]
      split <;> omega
  · rw [if_neg hdst, if_pos hS]
    omega

/-- Without links. -/
theorem linked_of_parent_eq_none (hparent : ∀ c, A.parent c = none)
    (hchildren : ∀ p, A.children p = []) : A.Linked where
  bounded c p h := by
    rw [hparent] at h
    cases h
  mem_children_iff p c := by
    rw [hparent, hchildren]
    exact ⟨fun h => absurd h List.not_mem_nil, fun h => by cases h⟩
  nodup p := by
    rw [hchildren]
    exact List.nodup_nil

theorem acyclic_of_parent_eq_none (hparent : ∀ c, A.parent c = none) : Acyclic A.parent :=
  ⟨id, fun c p h => by
    rw [hparent] at h
    cases h⟩

theorem Linked.orphan (h : A.Linked) (a : α) : (A.orphan a).Linked where
  bounded c p hc :=
    ⟨Nat.lt_succ_of_lt (h.bounded c p hc).1, Nat.lt_succ_of_lt (h.bounded c p hc).2⟩
  mem_children_iff := h.mem_children_iff
  nodup := h.nodup

theorem Linked.modify (h : A.Linked) (c : ℕ) (f : α → α) : (A.modify c f).Linked :=
  ⟨h.bounded, h.mem_children_iff, h.nodup⟩

/-- The nodes that nothing was created for stand alone. -/
theorem Linked.parent_eq_none (h : A.Linked) (hc : A.size ≤ c) : A.parent c = none := by
  cases hp : A.parent c with
  | none => rfl
  | some p => exact absurd (h.bounded c p hp).1 (Nat.not_lt.mpr hc)

/-! ### Detaching -/

@[simp]
theorem size_detach : (A.detach c).size = A.size := by
  unfold detach
  split <;> rfl

@[simp]
theorem value_detach : (A.detach c).value = A.value := by
  unfold detach
  split <;> rfl

/-- A node that stands alone is not changed. -/
theorem detach_of_parent_eq_none (halone : A.parent c = none) : A.detach c = A := by
  unfold detach
  rw [halone]

/-- A child is taken out. -/
theorem detach_of_parent_eq_some (hp : A.parent c = some p) : A.detach c =
    { A with
      parent := Function.update A.parent c none
      children := Function.update A.children p ((A.children p).erase c) } := by
  unfold detach
  rw [hp]

theorem parent_detach_self : (A.detach c).parent c = none := by
  unfold detach
  split
  · next hp => exact hp
  · exact Function.update_self _ _ _

theorem parent_detach_of_ne {x : ℕ} (hx : x ≠ c) : (A.detach c).parent x = A.parent x := by
  unfold detach
  split
  · rfl
  · exact Function.update_of_ne hx _ _

/-- A detached node leaves its siblings in their order. -/
theorem children_detach (h : A.Linked) (c q : ℕ) :
    (A.detach c).children q = (A.children q).erase c := by
  unfold detach
  split
  · next hp =>
      refine (List.erase_of_not_mem fun hmem => ?_).symm
      rw [h.mem_children_iff, hp] at hmem
      cases hmem
  · next p hp =>
      by_cases hq : q = p
      · subst hq
        exact Function.update_self _ _ _
      · refine (Function.update_of_ne hq _ _).trans (List.erase_of_not_mem fun hmem => ?_).symm
        rw [h.mem_children_iff, hp] at hmem
        exact hq (Option.some.inj hmem).symm

theorem Linked.detach (h : A.Linked) (c : ℕ) : (A.detach c).Linked where
  bounded x p hx := by
    rw [size_detach]
    by_cases hxc : x = c
    · subst hxc
      rw [parent_detach_self] at hx
      cases hx
    · exact h.bounded x p ((parent_detach_of_ne hxc).symm.trans hx)
  mem_children_iff p x := by
    rw [children_detach h, (h.nodup p).mem_erase_iff, h.mem_children_iff]
    by_cases hxc : x = c
    · subst hxc
      rw [parent_detach_self]
      exact ⟨fun hx => absurd rfl hx.1, fun hx => by cases hx⟩
    · rw [parent_detach_of_ne hxc]
      exact ⟨And.right, fun hx => ⟨hxc, hx⟩⟩
  nodup p := by
    rw [children_detach h]
    exact (h.nodup p).erase c

/-- A forest is still one when links are taken from it. -/
theorem Acyclic.of_imp {parent parent' : ℕ → Option ℕ} (h : Acyclic parent)
    (hsub : ∀ x p, parent' x = some p → parent x = some p) : Acyclic parent' := by
  obtain ⟨rank, hrank⟩ := h
  exact ⟨rank, fun x p hx => hrank x p (hsub x p hx)⟩

theorem Acyclic.detach (h : Acyclic A.parent) (c : ℕ) : Acyclic (A.detach c).parent := by
  refine h.of_imp fun x p hx => ?_
  by_cases hxc : x = c
  · subst hxc
    rw [parent_detach_self] at hx
    cases hx
  · exact (parent_detach_of_ne hxc).symm.trans hx

/-- What is under a node is under it without its own link too. -/
theorem under_detach_iff {x : ℕ} : (A.detach c).Under x c ↔ A.Under x c := by
  constructor
  · refine fun h => Relation.ReflTransGen.mono (fun u v huv => ?_) x c h
    by_cases huc : u = c
    · subst huc
      rw [parent_detach_self] at huv
      cases huv
    · exact (parent_detach_of_ne huc).symm.trans huv
  · intro h
    induction h using Relation.ReflTransGen.head_induction_on with
    | refl => exact Relation.ReflTransGen.refl
    | @head u v hstep _ ih =>
        by_cases huc : u = c
        · rw [huc]
          exact Relation.ReflTransGen.refl
        · exact Relation.ReflTransGen.head ((parent_detach_of_ne huc).trans hstep) ih

/-! ### Linking -/

/-- **A node that stands alone becomes a child.** -/
theorem Linked.link {l : List ℕ} (h : A.Linked) (halone : A.parent c = none) (hc : c < A.size)
    (hp : p < A.size) (hl : l.Perm (c :: A.children p)) : (A.link p c l).Linked where
  bounded x q hx := by
    by_cases hxc : x = c
    · subst hxc
      have heq : Function.update A.parent x (some p) x = some q := hx
      rw [Function.update_self] at heq
      exact ⟨hc, Option.some.inj heq ▸ hp⟩
    · exact h.bounded x q ((Function.update_of_ne hxc _ _).symm.trans hx)
  mem_children_iff q x := by
    have hnot : ∀ q, c ∉ A.children q := fun q hmem => by
      rw [h.mem_children_iff, halone] at hmem
      cases hmem
    change x ∈ Function.update A.children p l q ↔ Function.update A.parent c (some p) x = some q
    by_cases hq : q = p
    · subst hq
      rw [Function.update_self, hl.mem_iff, List.mem_cons]
      by_cases hxc : x = c
      · subst hxc
        exact iff_of_true (Or.inl rfl) (Function.update_self _ _ _)
      · rw [Function.update_of_ne hxc, ← h.mem_children_iff]
        exact ⟨fun hx => hx.resolve_left hxc, Or.inr⟩
    · rw [Function.update_of_ne hq]
      by_cases hxc : x = c
      · subst hxc
        rw [Function.update_self]
        exact iff_of_false (hnot q) fun heq => hq (Option.some.inj heq).symm
      · rw [Function.update_of_ne hxc]
        exact h.mem_children_iff q x
  nodup q := by
    change (Function.update A.children p l q).Nodup
    by_cases hq : q = p
    · subst hq
      rw [Function.update_self, hl.nodup_iff, List.nodup_cons]
      refine ⟨fun hmem => ?_, h.nodup q⟩
      rw [h.mem_children_iff, halone] at hmem
      cases hmem
    · rw [Function.update_of_ne hq]
      exact h.nodup q

/-- What is under a node does not rank lower. -/
theorem Under.rank_le {rank : ℕ → ℕ} (hrank : ∀ c p, A.parent c = some p → rank p < rank c)
    {x y : ℕ} (h : A.Under x y) : rank y ≤ rank x := by
  induction h using Relation.ReflTransGen.head_induction_on with
  | refl => exact Nat.le_refl _
  | head hstep _ ih => exact Nat.le_trans ih (Nat.le_of_lt (hrank _ _ hstep))

/-- No parent is under its child. -/
theorem Acyclic.not_under (h : Acyclic A.parent) (hp : A.parent c = some p) : ¬A.Under p c := by
  obtain ⟨rank, hrank⟩ := h
  intro hu
  exact absurd (hrank c p hp) (Nat.not_lt.mpr (hu.rank_le hrank))

/-- **Linking makes a cycle** exactly where the new parent is under the node. -/
theorem acyclic_link_iff {l : List ℕ} (h : Acyclic A.parent) (halone : A.parent c = none) :
    Acyclic (A.link p c l).parent ↔ ¬A.Under p c := by
  have hparent : (A.link p c l).parent c = some p := Function.update_self _ _ _
  constructor
  · refine fun hlinked hu => hlinked.not_under hparent ?_
    refine Relation.ReflTransGen.mono (fun u v huv => ?_) p c hu
    have hne : u ≠ c := by
      rintro rfl
      rw [halone] at huv
      cases huv
    exact (Function.update_of_ne hne _ _).trans huv
  · intro hunder
    refine h.move (S := fun x => A.Under x c) hunder
      (fun x q hx hq => Relation.ReflTransGen.head hx hq) fun x q hx => ?_
    by_cases hxc : x = c
    · subst hxc
      rw [hparent] at hx
      exact Or.inr ⟨Relation.ReflTransGen.refl, (Option.some.inj hx).symm⟩
    · exact Or.inl ((Function.update_of_ne hxc _ _).symm.trans hx)

theorem putBefore_perm (s c : ℕ) (l : List ℕ) : (putBefore s c l).Perm (c :: l) := by
  refine List.perm_middle.trans (List.Perm.cons c ?_)
  rw [List.takeWhile_append_dropWhile]

/-- **The children of a node are moved** to another. -/
theorem Linked.reparent (h : A.Linked) (hdst : dst < A.size) (hne : src ≠ dst) :
    (A.reparent src dst).Linked where
  bounded x q hx := by
    change (if x ∈ A.children src then some dst else A.parent x) = some q at hx
    split at hx
    · next hmem =>
        obtain rfl := Option.some.inj hx
        exact ⟨(h.bounded x src ((h.mem_children_iff src x).mp hmem)).1, hdst⟩
    · exact h.bounded x q hx
  mem_children_iff q x := by
    change x ∈ Function.update (Function.update A.children src []) dst
        (A.children dst ++ A.children src) q ↔
      (if x ∈ A.children src then some dst else A.parent x) = some q
    by_cases hq : q = dst
    · subst hq
      rw [Function.update_self, List.mem_append]
      split
      · next hmem => exact iff_of_true (Or.inr hmem) rfl
      · next hmem =>
          rw [← h.mem_children_iff]
          exact ⟨fun hx => hx.resolve_right hmem, Or.inl⟩
    · rw [Function.update_of_ne hq]
      by_cases hsrc : q = src
      · subst hsrc
        rw [Function.update_self]
        refine iff_of_false List.not_mem_nil fun hx => ?_
        split at hx
        · exact hq (Option.some.inj hx).symm
        · next hmem => exact hmem ((h.mem_children_iff q x).mpr hx)
      · rw [Function.update_of_ne hsrc]
        split
        · next hmem =>
            refine iff_of_false (fun hx => ?_) fun hx => hq (Option.some.inj hx).symm
            rw [h.mem_children_iff] at hmem hx
            exact hsrc (Option.some.inj (hx.symm.trans hmem))
        · exact h.mem_children_iff q x
  nodup q := by
    change (Function.update (Function.update A.children src []) dst
      (A.children dst ++ A.children src) q).Nodup
    by_cases hq : q = dst
    · subst hq
      rw [Function.update_self]
      refine (h.nodup q).append (h.nodup src) fun x hx hx' => ?_
      rw [h.mem_children_iff] at hx hx'
      exact hne (Option.some.inj (hx'.symm.trans hx))
    · rw [Function.update_of_ne hq]
      by_cases hsrc : q = src
      · subst hsrc
        rw [Function.update_self]
        exact List.nodup_nil
      · rw [Function.update_of_ne hsrc]
        exact h.nodup q

/-- **Reparenting makes a cycle** exactly where the new parent is under one of the children. -/
theorem acyclic_reparent_iff (h : Acyclic A.parent) :
    Acyclic (A.reparent src dst).parent ↔ ∀ c ∈ A.children src, ¬A.Under dst c := by
  constructor
  · intro hmoved c hc hu
    -- the first child of the old parent on the way up
    obtain ⟨x, hx, hux⟩ : ∃ x ∈ A.children src, (A.reparent src dst).Under dst x := by
      suffices hfirst : ∀ u, A.Under u c →
          ∃ x ∈ A.children src, (A.reparent src dst).Under u x from hfirst dst hu
      intro u hu
      induction hu using Relation.ReflTransGen.head_induction_on with
      | refl => exact ⟨c, hc, Relation.ReflTransGen.refl⟩
      | @head u v hstep _ ih =>
          by_cases hmem : u ∈ A.children src
          · exact ⟨u, hmem, Relation.ReflTransGen.refl⟩
          · obtain ⟨x, hx, hvx⟩ := ih
            exact ⟨x, hx, Relation.ReflTransGen.head ((if_neg hmem).trans hstep) hvx⟩
    exact hmoved.not_under (if_pos hx) hux
  · intro hunder
    refine h.move (S := fun x => ∃ c ∈ A.children src, A.Under x c)
      (fun ⟨c, hc, hu⟩ => hunder c hc hu)
      (fun x q hx hq => hq.imp fun c hc => ⟨hc.1, Relation.ReflTransGen.head hx hc.2⟩)
      fun x q hx => ?_
    change (if x ∈ A.children src then some dst else A.parent x) = some q at hx
    split at hx
    · next hmem =>
        exact Or.inr ⟨⟨x, hmem, Relation.ReflTransGen.refl⟩, (Option.some.inj hx).symm⟩
    · exact Or.inl hx

/-- Nothing is under a node that is created now. -/
theorem Linked.not_under_orphan (h : A.Linked) (hp : p < A.size) :
    ¬(A.orphan a).Under p A.size := by
  intro hu
  rcases Relation.ReflTransGen.cases_tail hu with heq | ⟨x, -, hx⟩
  · exact Nat.ne_of_gt hp heq
  · exact Nat.lt_irrefl _ (h.bounded x A.size hx).2

/-- Nothing else is under a node without children. -/
theorem Linked.eq_of_under_leaf {x : ℕ} (h : A.Linked) (hleaf : A.children c = [])
    (hu : A.Under x c) : x = c := by
  rcases Relation.ReflTransGen.cases_tail hu with heq | ⟨y, -, hy⟩
  · exact heq.symm
  · have hmem := (h.mem_children_iff c y).mpr hy
    rw [hleaf] at hmem
    cases hmem

/-- The node in front of another is its sibling. -/
theorem Linked.prevSibling_lt (h : A.Linked) (hc : A.prevSibling s = some c) : c < A.size := by
  obtain ⟨p, -, hlast⟩ := Option.bind_eq_some_iff.mp hc
  have hmem := (List.takeWhile_sublist _).subset (List.mem_of_getLast? hlast)
  exact (h.bounded c p ((h.mem_children_iff p c).mp hmem)).1

/-! ### Walks -/

/-- **What stands under a node**, from the leaves up; `none` where the fuel runs out. -/
def fold (A : Arena α) (f : ℕ → α → List β → β) : ℕ → ℕ → Option β
  | 0, _ => none
  | fuel + 1, c => ((A.children c).mapM (A.fold f fuel)).map (f c (A.value c))

/-- The node and the nodes under it. -/
def preorder (A : Arena α) : ℕ → ℕ → Option (List ℕ) :=
  A.fold fun c _ below => c :: below.flatten

/-- **A rank that is bounded by the size**: how many nodes rank lower. -/
theorem Linked.exists_rank_lt (h : A.Linked) (hforest : Acyclic A.parent) :
    ∃ rank : ℕ → ℕ, (∀ c, c < A.size → rank c < A.size) ∧
      ∀ c p, A.parent c = some p → rank p < rank c := by
  obtain ⟨rank, hrank⟩ := hforest
  refine ⟨fun c => ((Finset.range A.size).filter fun x => rank x < rank c).card, fun c hc => ?_,
    fun c p hc => ?_⟩
  · have hlt : ((Finset.range A.size).filter fun x => rank x < rank c).card <
        (Finset.range A.size).card := by
      refine Finset.card_lt_card ((Finset.filter_ssubset).mpr ⟨c, Finset.mem_range.mpr hc, ?_⟩)
      exact Nat.lt_irrefl _
    rwa [Finset.card_range] at hlt
  · refine Finset.card_lt_card (Finset.ssubset_iff_of_subset (fun x hx => ?_) |>.mpr ⟨p, ?_, ?_⟩)
    · obtain ⟨hx, hlt⟩ := Finset.mem_filter.mp hx
      exact Finset.mem_filter.mpr ⟨hx, Nat.lt_trans hlt (hrank c p hc)⟩
    · exact Finset.mem_filter.mpr
        ⟨Finset.mem_range.mpr (h.bounded c p hc).2, hrank c p hc⟩
    · exact fun hp => Nat.lt_irrefl _ (Finset.mem_filter.mp hp).2

/-- **Every walk ends** in a forest, with as much fuel as there are nodes. -/
theorem Linked.fold_isSome (h : A.Linked) (hforest : Acyclic A.parent)
    (f : ℕ → α → List β → β) (hc : c < A.size) : (A.fold f A.size c).isSome = true := by
  obtain ⟨rank, hbound, hrank⟩ := h.exists_rank_lt hforest
  have hends : ∀ (fuel c : ℕ), c < A.size → A.size ≤ fuel + rank c →
      (A.fold f fuel c).isSome = true := by
    intro fuel
    induction fuel with
    | zero =>
        intro c hc hfuel
        have := hbound c hc
        omega
    | succ fuel ih =>
        intro c hc hfuel
        have hchildren : ∀ l : List ℕ, (∀ x ∈ l, x ∈ A.children c) →
            (l.mapM (A.fold f fuel)).isSome = true := by
          intro l
          induction l with
          | nil => exact fun _ => rfl
          | cons x l ihl =>
              intro hl
              have hx := (h.mem_children_iff c x).mp (hl x List.mem_cons_self)
              have hlt := hrank x c hx
              obtain ⟨b, hb⟩ := Option.isSome_iff_exists.mp
                (ih x (h.bounded x c hx).1 (by omega))
              obtain ⟨bs, hbs⟩ := Option.isSome_iff_exists.mp
                (ihl fun y hy => hl y (List.mem_cons_of_mem _ hy))
              rw [List.mapM_cons, hb, hbs]
              rfl
        rw [fold, Option.isSome_map]
        exact hchildren _ fun _ => id
  exact hends A.size c hc (Nat.le_add_right _ _)

/-- The results of the children, one by one. -/
theorem mapM_fold_eq_some_iff {f : ℕ → α → List β → β} {fuel : ℕ} {l : List ℕ} {bs : List β} :
    l.mapM (A.fold f fuel) = some bs ↔ List.Forall₂ (fun x b => A.fold f fuel x = some b) l bs := by
  induction l generalizing bs with
  | nil =>
      rw [List.mapM_nil, List.forall₂_nil_left_iff]
      exact ⟨fun h => (Option.some.inj h).symm, fun h => congrArg some h.symm⟩
  | cons x l ih =>
      rw [List.mapM_cons, List.forall₂_cons_left_iff]
      constructor
      · intro h
        obtain ⟨b, hb, h⟩ := Option.bind_eq_some_iff.mp h
        obtain ⟨bs', hbs, h⟩ := Option.bind_eq_some_iff.mp h
        exact ⟨b, bs', hb, ih.mp hbs, (Option.some.inj h).symm⟩
      · rintro ⟨b, bs', hb, hbs, rfl⟩
        rw [hb, ih.mpr hbs]
        rfl

/-- **Related steps make related walks.** -/
theorem fold_rel {R : β → γ → Prop} {f : ℕ → α → List β → β} {g : ℕ → α → List γ → γ}
    (hR : ∀ c bs cs, List.Forall₂ R bs cs → R (f c (A.value c) bs) (g c (A.value c) cs))
    {fuel : ℕ} {b : β} {b' : γ} (hb : A.fold f fuel c = some b) (hb' : A.fold g fuel c = some b') :
    R b b' := by
  induction fuel generalizing c b b' with
  | zero => cases hb
  | succ fuel ih =>
      obtain ⟨bs, hbs, rfl⟩ := Option.map_eq_some_iff.mp hb
      obtain ⟨cs, hcs, rfl⟩ := Option.map_eq_some_iff.mp hb'
      refine hR c bs cs ?_
      have hleft := mapM_fold_eq_some_iff.mp hbs
      have hright := mapM_fold_eq_some_iff.mp hcs
      clear hbs hcs hb hb'
      generalize A.children c = l at hleft hright
      induction hleft generalizing cs with
      | nil =>
          cases hright
          exact .nil
      | cons hx _ ihl =>
          cases hright with
          | cons hy hright => exact .cons (ih hx hy) (ihl _ hright)

/-- The chain of parents is a chain. -/
theorem Under.total {x y z : ℕ} (hy : A.Under x y) (hz : A.Under x z) :
    A.Under y z ∨ A.Under z y := by
  induction hy using Relation.ReflTransGen.head_induction_on with
  | refl => exact Or.inl hz
  | head hstep _ ih =>
      rename_i u v
      rcases Relation.ReflTransGen.cases_head hz with rfl | ⟨w, hw, hz⟩
      · exact Or.inr (Relation.ReflTransGen.head hstep ‹_›)
      · rw [hstep] at hw
        obtain rfl := Option.some.inj hw
        exact ih hz

/-- **A walk visits what is under the node.** -/
theorem Linked.mem_preorder_iff (h : A.Linked) {fuel : ℕ} {visited : List ℕ} {x : ℕ}
    (hwalk : A.preorder fuel c = some visited) : x ∈ visited ↔ A.Under x c := by
  induction fuel generalizing c visited x with
  | zero => cases hwalk
  | succ fuel ih =>
      obtain ⟨below, hbelow, rfl⟩ := Option.map_eq_some_iff.mp hwalk
      have hchildren := mapM_fold_eq_some_iff.mp hbelow
      rw [List.mem_cons, List.mem_flatten]
      constructor
      · rintro (rfl | ⟨visited, hvisited, hx⟩)
        · exact Relation.ReflTransGen.refl
        · obtain ⟨i, hi, rfl⟩ := List.mem_iff_getElem.mp hvisited
          have hlength := hchildren.length_eq
          have hwalk := hchildren.get (by omega) hi
          exact ((ih hwalk).mp hx).tail
            ((h.mem_children_iff c _).mp (List.getElem_mem _))
      · intro hx
        rcases Relation.ReflTransGen.cases_tail hx with rfl | ⟨y, hxy, hyc⟩
        · exact Or.inl rfl
        · obtain ⟨i, hi, rfl⟩ := List.mem_iff_getElem.mp ((h.mem_children_iff c y).mpr hyc)
          have hlength := hchildren.length_eq
          have hwalk := hchildren.get hi (by omega)
          exact Or.inr ⟨_, List.getElem_mem (by omega), (ih hwalk).mpr hxy⟩

/-- **A walk visits every node once.** -/
theorem Linked.preorder_nodup (h : A.Linked) (hforest : Acyclic A.parent) {fuel : ℕ}
    {visited : List ℕ} (hwalk : A.preorder fuel c = some visited) : visited.Nodup := by
  obtain ⟨rank, hrank⟩ := hforest
  induction fuel generalizing c visited with
  | zero => cases hwalk
  | succ fuel ih =>
      obtain ⟨below, hbelow, rfl⟩ := Option.map_eq_some_iff.mp hwalk
      have hchildren := mapM_fold_eq_some_iff.mp hbelow
      have hlength := hchildren.length_eq
      have hparent : ∀ i (hi : i < (A.children c).length),
          A.parent (A.children c)[i] = some c := fun i hi =>
        (h.mem_children_iff c _).mp (List.getElem_mem hi)
      rw [List.nodup_cons]
      constructor
      · -- the node ranks below what is under its children
        intro hmem
        obtain ⟨visited, hvisited, hc⟩ := List.mem_flatten.mp hmem
        obtain ⟨i, hi, rfl⟩ := List.mem_iff_getElem.mp hvisited
        have hunder := (h.mem_preorder_iff (hchildren.get (by omega) hi)).mp hc
        have hle : rank (A.children c)[i] ≤ rank c := hunder.rank_le hrank
        have hlt := hrank _ _ (hparent i (by omega))
        omega
      · refine List.nodup_flatten.mpr ⟨fun visited hvisited => ?_, ?_⟩
        · obtain ⟨i, hi, rfl⟩ := List.mem_iff_getElem.mp hvisited
          exact ih (hchildren.get (by omega) hi)
        · refine List.pairwise_iff_getElem.mpr fun i j hi hj hij x hxi hxj => ?_
          -- two children above one node would be under each other
          have hui := (h.mem_preorder_iff (hchildren.get (by omega) hi)).mp hxi
          have huj := (h.mem_preorder_iff (hchildren.get (by omega) hj)).mp hxj
          have hne : (A.children c)[i] ≠ (A.children c)[j] := fun heq =>
            Nat.ne_of_lt hij ((h.nodup c).getElem_inj_iff.mp heq)
          have habsurd : ∀ {y z : ℕ}, A.parent y = some c → A.parent z = some c → y ≠ z →
              ¬A.Under y z := by
            intro y z hy hz hyz hu
            rcases Relation.ReflTransGen.cases_head hu with heq | ⟨w, hw, hu⟩
            · exact hyz heq
            · rw [hy] at hw
              obtain rfl := Option.some.inj hw
              have hle := Under.rank_le hrank hu
              have hlt := hrank z _ hz
              omega
          rcases hui.total huj with hu | hu
          · exact habsurd (hparent i (by omega)) (hparent j (by omega)) hne hu
          · exact habsurd (hparent j (by omega)) (hparent i (by omega)) hne.symm hu

end Arena
