import Phrasebook.Book

/-!
What renderings do to the pools of a phrasebook. A rendering returns whatever it rents, the item
rented last first, also where a source or a format breaks down. It has one more tree out than there
are levels of expansion, so that a pool that may keep so many trees never makes another one.
-/

namespace Phrasebook

def Shelf.treeCount : Shelf → Nat
  | .trees => 1
  | _ => 0

/-- Traffic that returns what it rents, and never has more than `trees` trees out. -/
inductive Traffic.Settled : Nat → List Traffic → Prop
  | nil (trees : Nat) : Settled trees []
  | write {trees : Nat} {later : List Traffic} (text : String) (rest : Settled trees later) :
      Settled trees (.write text :: later)
  | rented {trees inside : Nat} {inner later : List Traffic} (shelf : Shelf)
      (fits : inside + shelf.treeCount ≤ trees) (within : Settled inside inner)
      (rest : Settled trees later) :
      Settled trees (.rent shelf :: inner ++ .giveBack shelf :: later)

namespace Traffic.Settled

variable {trees : Nat} {traffic later : List Traffic}

theorem append (settled : Settled trees traffic) (rest : Settled trees later) :
    Settled trees (traffic ++ later) := by
  induction settled with
  | nil => exact rest
  | write text _ ih => exact .write text (ih rest)
  | rented shelf fits within _ _ ih =>
      rw [List.append_assoc, List.cons_append]
      exact .rented shelf fits within (ih rest)

theorem mono {more : Nat} (settled : Settled trees traffic) (enough : trees ≤ more) :
    Settled more traffic := by
  induction settled with
  | nil => exact .nil more
  | write text _ ih => exact .write text (ih enough)
  | rented shelf fits within _ _ ih =>
      exact .rented shelf (Nat.le_trans fits enough) within (ih enough)

theorem around {inside : Nat} (settled : Settled inside traffic) (shelf : Shelf)
    (fits : inside + shelf.treeCount ≤ trees) :
    Settled trees (.rent shelf :: traffic ++ [.giveBack shelf]) :=
  .rented shelf fits settled (.nil trees)

theorem writes (texts : List String) : Settled trees (texts.map Traffic.write) := by
  induction texts with
  | nil => exact .nil trees
  | cons text _ ih => exact .write text ih

end Traffic.Settled

namespace Pool

variable {α : Type} [Reusable α]

theorem outstanding_rent (pool : Pool α) : pool.rent.2.outstanding - 1 = pool.outstanding := by
  have counted : pool.rent.2.rented = pool.rented + 1 ∧ pool.rent.2.returned = pool.returned := by
    unfold rent
    split <;> exact ⟨rfl, rfl⟩
  rw [outstanding, outstanding, counted.1, counted.2]
  omega

theorem outstanding_giveBack (pool : Pool α) (item : α) :
    (pool.giveBack item).outstanding = pool.outstanding - 1 := by
  have counted : (pool.giveBack item).rented = pool.rented ∧
      (pool.giveBack item).returned = pool.returned + 1 := by
    simp only [giveBack]
    split <;> exact ⟨rfl, rfl⟩
  rw [outstanding, outstanding, counted.1, counted.2]
  omega

end Pool

def Pools.outstanding (pools : Pools) : Shelf → Nat
  | .trees => pools.trees.outstanding
  | .texts => pools.texts.outstanding
  | .readers => pools.readers.outstanding

namespace PoolDesk

/-- As many items are out as before, and the same texts but for what was written to the innermost
of them. -/
structure Returned (before after : PoolDesk) : Prop where
  outstanding : ∀ shelf, after.pools.outstanding shelf = before.pools.outstanding shelf
  length : after.opened.length = before.opened.length
  outer : after.opened.tail = before.opened.tail

theorem Returned.trans {first second third : PoolDesk} (left : first.Returned second)
    (right : second.Returned third) : first.Returned third :=
  ⟨fun shelf => (right.outstanding shelf).trans (left.outstanding shelf),
    right.length.trans left.length, right.outer.trans left.outer⟩

theorem returned_write (desk : PoolDesk) (text : String) :
    desk.Returned (desk.step (.write text)) := by
  obtain ⟨pools, opened⟩ := desk
  cases opened <;> exact ⟨fun _ => rfl, rfl, rfl⟩

theorem outstanding_rent (desk : PoolDesk) (shelf asked : Shelf) :
    (desk.step (.rent shelf)).pools.outstanding asked - (if asked = shelf then 1 else 0) =
      desk.pools.outstanding asked := by
  cases shelf <;> cases asked <;> first | exact Pool.outstanding_rent _ | rfl

theorem outstanding_giveBack {desk : PoolDesk} {shelf : Shelf}
    (held : shelf = .texts → desk.opened ≠ []) (asked : Shelf) :
    (desk.step (.giveBack shelf)).pools.outstanding asked =
      desk.pools.outstanding asked - (if asked = shelf then 1 else 0) := by
  obtain ⟨pools, opened⟩ := desk
  cases shelf with
  | trees => cases asked <;> first | exact Pool.outstanding_giveBack _ _ | rfl
  | readers => cases asked <;> first | exact Pool.outstanding_giveBack _ _ | rfl
  | texts =>
      cases opened with
      | nil => exact absurd rfl (held rfl)
      | cons buffer outer => cases asked <;> first | exact Pool.outstanding_giveBack _ _ | rfl

/-- What happens between a rent and its return leaves the rented item on top. -/
theorem returned_rented (shelf : Shelf) {desk inner : PoolDesk}
    (returned : (desk.step (.rent shelf)).Returned inner) :
    desk.Returned (inner.step (.giveBack shelf)) := by
  have held : shelf = .texts → inner.opened ≠ [] := by
    rintro rfl empty
    have length := returned.length
    rw [empty] at length
    cases length
  have outstanding (asked : Shelf) :
      (inner.step (.giveBack shelf)).pools.outstanding asked = desk.pools.outstanding asked := by
    rw [outstanding_giveBack held, returned.outstanding, outstanding_rent]
  cases shelf with
  | trees => exact ⟨outstanding, returned.length, returned.outer⟩
  | readers => exact ⟨outstanding, returned.length, returned.outer⟩
  | texts =>
      obtain ⟨pools, opened⟩ := inner
      cases opened with
      | nil => exact absurd rfl (held rfl)
      | cons buffer outer =>
          obtain rfl : outer = desk.opened := returned.outer
          exact ⟨outstanding, rfl, rfl⟩

theorem follow_rented (desk : PoolDesk) (shelf : Shelf) (inner later : List Traffic) :
    desk.follow (.rent shelf :: inner ++ .giveBack shelf :: later) =
      (((desk.step (.rent shelf)).follow inner).step (.giveBack shelf)).follow later := by
  simp [follow]

theorem returned_follow {trees : Nat} {traffic : List Traffic}
    (settled : Traffic.Settled trees traffic) (desk : PoolDesk) :
    desk.Returned (desk.follow traffic) := by
  induction settled generalizing desk with
  | nil => exact ⟨fun _ => rfl, rfl, rfl⟩
  | write text _ ih => exact (desk.returned_write text).trans (ih _)
  | rented shelf _ _ _ ihInner ihLater =>
      rw [follow_rented]
      exact (returned_rented shelf (ihInner _)).trans (ihLater _)

end PoolDesk

/-- Every item that was made is idle or one of the `out` items that are out, so an item is made only
when all are out. Up to `limit` items there is room for each of them when it comes back. -/
structure Pool.Thrifty {α : Type} (limit out : Nat) (pool : Pool α) : Prop where
  counted : pool.created = pool.idle.length + out
  bounded : pool.created ≤ limit
  roomy : limit ≤ pool.maxIdle

namespace Pool.Thrifty

variable {α : Type} {limit out : Nat}

theorem new {maxIdle : Nat} (roomy : limit ≤ maxIdle) :
    (Pool.new maxIdle : Pool α).Thrifty limit 0 :=
  ⟨rfl, Nat.zero_le limit, roomy⟩

variable [Reusable α] {pool : Pool α}

theorem rent (thrifty : pool.Thrifty limit out) (few : out < limit) :
    pool.rent.2.Thrifty limit (out + 1) := by
  obtain ⟨counted, bounded, roomy⟩ := thrifty
  unfold Pool.rent
  split
  · rename_i item rest idle
    rw [idle, List.length_cons] at counted
    exact ⟨by simp only; omega, bounded, roomy⟩
  · rename_i idle
    rw [idle, List.length_nil] at counted
    exact ⟨by simp only [idle, List.length_nil]; omega, by simp only; omega, roomy⟩

theorem giveBack (thrifty : pool.Thrifty limit (out + 1)) {item : α}
    (kept : Reusable.worthKeeping item) : (pool.giveBack item).Thrifty limit out := by
  obtain ⟨counted, bounded, roomy⟩ := thrifty
  have room : pool.idle.length < pool.maxIdle := by omega
  simp only [Pool.giveBack, kept, room, decide_true, Bool.and_self, if_true]
  refine ⟨?_, bounded, roomy⟩
  simp only [List.length_append, List.length_singleton]
  omega

end Pool.Thrifty

theorem PoolDesk.thrifty_follow {trees limit out : Nat} {traffic : List Traffic}
    (settled : Traffic.Settled trees traffic) {desk : PoolDesk}
    (thrifty : desk.pools.trees.Thrifty limit out) (few : out + trees ≤ limit) :
    (desk.follow traffic).pools.trees.Thrifty limit out := by
  induction settled generalizing desk out with
  | nil => exact thrifty
  | write text _ ih =>
      refine ih ?_ few
      obtain ⟨pools, opened⟩ := desk
      cases opened <;> exact thrifty
  | @rented trees inside inner later shelf fits _ _ ihInner ihLater =>
      rw [follow_rented]
      refine ihLater ?_ few
      cases shelf with
      | trees =>
          have fits : inside + 1 ≤ trees := fits
          have rented : (desk.step (.rent .trees)).pools.trees.Thrifty limit (out + 1) :=
            thrifty.rent (by omega)
          exact (ihInner rented (by omega)).giveBack rfl
      | readers =>
          have fits : inside + 0 ≤ trees := fits
          exact @ihInner _ (desk.step (.rent .readers)) thrifty (by omega)
      | texts =>
          have fits : inside + 0 ≤ trees := fits
          have after := @ihInner _ (desk.step (.rent .texts)) thrifty (by omega)
          generalize ((desk.step (.rent .texts)).follow inner) = last at after ⊢
          obtain ⟨pools, opened⟩ := last
          cases opened <;> exact after

/-- The rendering returns what it rents, and never has more than `trees` trees out. -/
def Noted.Settled {α : Type} (trees : Nat) (noted : Noted α) : Prop :=
  Traffic.Settled trees noted.traffic

namespace Noted.Settled

variable {α β : Type} {trees : Nat}

theorem of_idle {noted : Noted α} (idle : noted.traffic = []) : noted.Settled trees := by
  rw [Settled, idle]
  exact .nil trees

theorem emit (text : String) : (Noted.emit text).Settled trees := .write text (.nil trees)

theorem bind {noted : Noted α} {next : α → Noted β} (start : noted.Settled trees)
    (rest : ∀ value, (next value).Settled trees) : (noted >>= next).Settled trees :=
  start.append (rest noted.value)

theorem renting {inside : Nat} {noted : Noted α} (settled : noted.Settled inside) {shelf : Shelf}
    (fits : inside + shelf.treeCount ≤ trees) : (Noted.renting shelf noted).Settled trees :=
  settled.around shelf fits

end Noted.Settled

def Deeper.Settled (trees : Nat) (deeper : Deeper) : Prop :=
  ∀ expand ∈ deeper, ∀ text, (expand text).Settled trees

theorem Phrase.settled_readerTraffic (trees : Nat) (phrase : Phrase) :
    Traffic.Settled trees phrase.readerTraffic := by
  induction phrase with
  | nil => exact .nil trees
  | leaf _ _ _ ih => exact ih
  | colored _ _ _ _ _ ihBody ihNext => exact .rented .readers (Nat.le_refl trees) ihBody ihNext

namespace Renderer

variable {context : Context} {deeper : Deeper} {trees : Nat}

theorem resolve_settled (below : deeper.Settled trees) (var : Variable) :
    (resolve context deeper var).Settled trees := by
  unfold resolve
  split
  · exact .of_idle rfl
  · split
    · split
      · exact .of_idle rfl
      · exact .bind ((below _ rfl _).renting (Nat.le_refl trees)) fun _ => .of_idle rfl
    · exact .of_idle rfl
  · exact .of_idle rfl

theorem slotValue_settled (renderer : Renderer) (below : deeper.Settled trees) (formula : String) :
    (renderer.slotValue context deeper formula).Settled trees := by
  unfold slotValue
  split
  · exact resolve_settled below _
  · split
    · exact .of_idle rfl
    · refine @Formula.evaluate_related Noted Noted _ _ (fun left _ => left.Settled trees) _ _
        (resolve context deeper) ?_ ?_ (resolve_settled below) _
      · exact fun _ => .of_idle rfl
      · exact .bind

theorem renderSlot_settled (renderer : Renderer) (below : deeper.Settled trees) (span : Span)
    (raw formula : String) (format : Option String) :
    (renderer.renderSlot context deeper span raw formula format).Settled trees := by
  refine .bind (renderer.slotValue_settled below formula) fun value => ?_
  split
  · exact .emit _
  · exact .bind (.of_idle rfl) fun _ => .emit raw

theorem renderReference_settled (renderer : Renderer) (below : deeper.Settled trees) (span : Span)
    (tooltip : Bool) (name : String) :
    (renderer.renderReference context deeper span tooltip name).Settled trees := by
  unfold renderReference
  split
  · exact .bind (.of_idle rfl) fun _ => .emit name
  · split
    · exact .bind (.of_idle rfl) fun _ => .emit name
    · split
      · exact .bind (.of_idle rfl) fun _ => .emit _
      · refine .bind ((below _ rfl _).renting (Nat.le_refl trees)) fun inner => ?_
        exact Traffic.Settled.writes _

theorem renderLeaf_settled (renderer : Renderer) (below : deeper.Settled trees) (start : Nat)
    (piece : Leaf) : (renderer.renderLeaf context deeper start piece).Settled trees := by
  cases piece with
  | text raw content => exact .emit content
  | reference tooltip key => exact renderer.renderReference_settled below _ tooltip key
  | slot formula format => exact renderer.renderSlot_settled below _ _ formula format

theorem renderPhrase_settled (renderer : Renderer) (below : deeper.Settled trees)
    (phrase : Phrase) : (renderer.renderPhrase context deeper phrase).Settled trees := by
  induction phrase with
  | nil => exact .of_idle rfl
  | leaf start piece next ih =>
      refine .bind (renderer.renderLeaf_settled below start piece) fun text => ?_
      exact ih.bind fun _ => .of_idle rfl
  | colored start code inner body next ihBody ihNext =>
      rw [renderPhrase_colored]
      refine .bind (.emit _) fun opening => ?_
      refine .bind (.emit _) fun color => ?_
      refine .bind (.emit _) fun opened => ?_
      refine .bind ?_ fun text => ?_
      · cases body with
        | nil => exact .emit inner
        | leaf => exact ihBody
        | colored => exact ihBody
      · refine .bind (.emit _) fun closing => ?_
        exact ihNext.bind fun _ => .of_idle rfl

theorem renderTemplate_settled (renderer : Renderer) (below : deeper.Settled trees)
    (template : Template) : (renderer.renderTemplate context deeper template).Settled trees := by
  refine .bind (.of_idle rfl) fun _ => ?_
  split
  · exact .emit _
  · exact renderer.renderPhrase_settled below _

theorem readAndRender_settled (renderer : Renderer) (below : deeper.Settled trees)
    (text : String) : (renderer.readAndRender context deeper text).Settled (trees + 1) := by
  -- The tree of the template is out for as long as the rendering takes.
  have read : Traffic.Settled trees (Template.read text).readTraffic :=
    (Phrase.settled_readerTraffic trees _).around .readers (Nat.le_refl trees)
  have rendered : (Noted.record (Template.read text).readTraffic >>= fun _ =>
      renderer.renderTemplate context deeper (Template.read text)).Settled trees :=
    .bind read fun _ => renderer.renderTemplate_settled below _
  exact rendered.renting (Nat.le_refl (trees + 1))

theorem expandWith_settled (renderer : Renderer) (below : deeper.Settled trees) (text : String) :
    (renderer.expandWith context deeper text).Settled (trees + 1) := by
  unfold expandWith
  split
  · exact renderer.readAndRender_settled below text
  · exact .emit text

theorem deeper_settled_of (renderer : Renderer)
    (expands : 0 < context.budget → ∀ text,
      (renderer.expand context.descend text).Settled (context.descend.budget + 1)) :
    (renderer.deeper context).Settled context.budget := by
  intro expand found text
  obtain ⟨left, rfl⟩ := (renderer.mem_deeper_iff context expand).mp found
  exact Context.budget_eq_of_left left ▸ expands left text

theorem expand_settled (renderer : Renderer) (context : Context) (text : String) :
    (renderer.expand context text).Settled (context.budget + 1) := by
  induction context using Context.budget_induction generalizing text with
  | step context below =>
      exact renderer.expandWith_settled (renderer.deeper_settled_of below) text

theorem deeper_settled (renderer : Renderer) (context : Context) :
    (renderer.deeper context).Settled context.budget :=
  renderer.deeper_settled_of fun _ => renderer.expand_settled context.descend

theorem render_settled (renderer : Renderer) (context : Context) (text : String) :
    (renderer.render context text).Settled (context.budget + 1) :=
  renderer.readAndRender_settled (renderer.deeper_settled context) text

theorem evaluate_settled (renderer : Renderer) (context : Context) (template : Template) :
    (renderer.evaluate context template).Settled context.budget :=
  renderer.renderTemplate_settled (renderer.deeper_settled context) template

end Renderer

theorem Pools.outstanding_follow {trees : Nat} {traffic : List Traffic}
    (settled : Traffic.Settled trees traffic) (pools : Pools) :
    (pools.follow traffic).outstanding = pools.outstanding :=
  funext (PoolDesk.returned_follow settled ⟨pools, []⟩).outstanding

namespace Book

inductive Call where
  | template (params : Params) (source : Source) (text : String)
  | phrase (params : Params) (source : Source) (key : Key)
  | text (params : Params) (key : Key)

def after (book : Book) : Call → Book
  | .template params source text => (book.render ((book.context params).withSource source) text).2
  | .phrase params source key => (book.renderKey ((book.context params).withSource source) key).2
  | .text params key => (book.textOf params key).2

def afterAll (book : Book) (calls : List Call) : Book := calls.foldl after book

theorem renderKeyNoted_settled (book : Book) (context : Context) (key : Key) :
    (book.renderKeyNoted context key).Settled (context.budget + 1) := by
  unfold renderKeyNoted
  split
  · exact book.renderer.render_settled context _
  · exact .of_idle rfl

theorem evaluations_settled (renderer : Renderer) (template : Template) (contexts : List Context) :
    ∃ trees, Traffic.Settled trees
      ((contexts.map fun context => renderer.evaluate context template).flatMap (·.traffic)) := by
  induction contexts with
  | nil => exact ⟨0, .nil 0⟩
  | cons context later ih =>
      obtain ⟨trees, settled⟩ := ih
      have first := renderer.evaluate_settled context template
      exact ⟨max context.budget trees,
        (first.mono (Nat.le_max_left _ _)).append (settled.mono (Nat.le_max_right _ _))⟩

theorem outstanding_renderEach (book : Book) (contexts : List Context) (source : String) :
    (book.renderEach contexts source).2.pools.outstanding = book.pools.outstanding := by
  obtain ⟨trees, rendered⟩ := evaluations_settled book.renderer (Template.read source) contexts
  have read : Traffic.Settled trees (Template.read source).readTraffic :=
    (Phrase.settled_readerTraffic trees _).around .readers (Nat.le_refl trees)
  exact Pools.outstanding_follow
    ((read.append rendered).around .trees (Nat.le_refl (trees + 1))) book.pools

theorem after_thrifty {book : Book} {limit : Nat} (enough : book.maxDepth + 1 ≤ limit)
    (thrifty : book.pools.trees.Thrifty limit 0) (call : Call) :
    (book.after call).maxDepth = book.maxDepth ∧
      (book.after call).pools.trees.Thrifty limit 0 := by
  have settle (context : Context) (top : context.budget = book.maxDepth) (noted : Noted String)
      (settled : noted.Settled (context.budget + 1)) :
      (book.settle noted).2.pools.trees.Thrifty limit 0 :=
    PoolDesk.thrifty_follow settled thrifty (by omega)
  cases call with
  | template params source text =>
      exact ⟨rfl, settle _ rfl _ (book.renderer.render_settled _ text)⟩
  | phrase params source key => exact ⟨rfl, settle _ rfl _ (book.renderKeyNoted_settled _ key)⟩
  | text params key => exact ⟨rfl, settle _ rfl _ (book.renderKeyNoted_settled _ key)⟩

theorem afterAll_thrifty {book : Book} {limit : Nat} (enough : book.maxDepth + 1 ≤ limit)
    (thrifty : book.pools.trees.Thrifty limit 0) (calls : List Call) :
    (book.afterAll calls).pools.trees.Thrifty limit 0 := by
  induction calls generalizing book with
  | nil => exact thrifty
  | cons call later ih =>
      obtain ⟨same, next⟩ := after_thrifty enough thrifty call
      exact ih (by omega) next

/-- Every rendering returns what it rents, whatever the pools have been through and also where a
source or a format breaks down. And new pools make no more trees than there can be templates inside
of each other, however much is rendered. -/
theorem rentals_settled (book : Book) :
    (∀ context template,
      (book.render context template).2.pools.outstanding = book.pools.outstanding) ∧
    (∀ context template, (book.settle (book.renderer.evaluate context template)).2.pools.outstanding
      = book.pools.outstanding) ∧
    (∀ contexts template,
      (book.renderEach contexts template).2.pools.outstanding = book.pools.outstanding) ∧
    (∀ context key,
      (book.renderKey context key).2.pools.outstanding = book.pools.outstanding) ∧
    (∀ params key, (book.textOf params key).2.pools.outstanding = book.pools.outstanding) ∧
    (book.pools = .new → book.maxDepth ≤ 31 →
      ∀ calls, (book.afterAll calls).pools.trees.created ≤ book.maxDepth + 1) := by
  refine ⟨fun context template => ?_, fun context template => ?_, book.outstanding_renderEach,
    fun context key => ?_, fun params key => ?_, fun fresh shallow calls => ?_⟩
  · exact Pools.outstanding_follow (book.renderer.render_settled context template) _
  · exact Pools.outstanding_follow (book.renderer.evaluate_settled context template) _
  · exact Pools.outstanding_follow (book.renderKeyNoted_settled context key) _
  · exact Pools.outstanding_follow (book.renderKeyNoted_settled _ key) _
  · have room : book.maxDepth + 1 ≤ Pool.defaultMaxIdle := Nat.succ_le_succ shallow
    have start : book.pools.trees.Thrifty (book.maxDepth + 1) 0 := by
      rw [fresh]
      exact .new room
    exact (afterAll_thrifty (Nat.le_refl _) start calls).bounded

/-- A phrase that refers to itself, and a source that breaks down. -/
def circling : Book :=
  { ofLexicon ⟨.ofList [(⟨["A"]⟩, .new "a {x} $A$")]⟩ with maxDepth := 2 }

def circlingCalls : List Call :=
  let broken : Source := fun _ _ => .error "broken"
  [.phrase .empty broken ⟨["A"]⟩, .template .empty broken "$A$ $A$", .text .empty ⟨["A"]⟩]

theorem rentals_settled_circling :
    circling.pools = .new ∧ circling.maxDepth ≤ 31 ∧
      (circling.afterAll circlingCalls).pools.trees.created = circling.maxDepth + 1 ∧
      (circling.afterAll circlingCalls).pools.trees.created ≤ circling.maxDepth + 1 :=
  ⟨rfl, by decide, by decide +kernel,
    circling.rentals_settled.2.2.2.2.2 rfl (by decide) circlingCalls⟩

end Book

end Phrasebook
