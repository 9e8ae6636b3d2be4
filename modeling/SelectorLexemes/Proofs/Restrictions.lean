/-
This file proves that the restriction to categories is a set and that both formats follow it.
Neither the order of the categories nor their repetition is seen in a rendering, and naming all of
them is the same as naming none.

In either format a restricted rendering is made of parts of the full one. A JSON document keeps
the members of its categories, in the fixed order and with the same arrays. A listing keeps the
blocks of its categories below the headline; when no block is left a remark takes their place,
whatever the other categories hold. The blocks do not depend on the restriction, so they are named
once and every listing is put together from them. Their lines are spelled out to the last space.
-/

import SelectorLexemes.Presentation
import SelectorLexemes.Proofs.Documents
import SelectorLexemes.Proofs.Listings

namespace SelectorLexemes

theorem Category.name_injective : Function.Injective Category.name := by
  intro first second same
  cases first <;> cases second <;> first | rfl | exact absurd same (by decide)

namespace Presentation

/-! ### Shown categories -/

theorem shows_iff (presentation : Presentation) (category : Category) :
    presentation.shows category = true ↔
      presentation.only = [] ∨ category ∈ presentation.only := by
  rw [shows, Bool.or_eq_true, List.isEmpty_iff, List.contains_iff_mem]

variable {first second only : List Category}

/-- A rendering depends on the categories that are shown and not on how they are asked for. -/
theorem render_congr
    (shown : ∀ category, first = [] ∨ category ∈ first ↔ second = [] ∨ category ∈ second)
    (format : Format) (colored : Bool) (selector : String) (inventory : Inventory) :
    ({ format, only := first, colored } : Presentation).render selector inventory =
      ({ format, only := second, colored } : Presentation).render selector inventory := by
  have categories : ({ format, only := first, colored } : Presentation).categories =
      ({ format, only := second, colored } : Presentation).categories := by
    refine List.filter_congr fun category _ => ?_
    rw [Bool.eq_iff_iff, shows_iff, shows_iff]
    exact shown category
  rw [render, render, categories]

theorem shows_of_ne_nil (restricted : only ≠ []) (format : Format) (colored : Bool)
    (category : Category) :
    ({ format, only, colored } : Presentation).shows category = decide (category ∈ only) := by
  rw [Bool.eq_iff_iff, shows_iff, decide_eq_true_iff]
  exact or_iff_right restricted

theorem categories_of_ne_nil (restricted : only ≠ []) (format : Format) (colored : Bool) :
    ({ format, only, colored } : Presentation).categories =
      Category.all.filter fun category => category ∈ only :=
  List.filter_congr fun category _ => shows_of_ne_nil restricted format colored category

end Presentation

/-! ### Members of a document -/

/-- The members of the document of an inventory. -/
def Inventory.members (inventory : Inventory) (categories : List Category) :
    List (String × Json) :=
  categories.map fun category =>
    (category.name, .array ((inventory.lexemes category).map Lexeme.document))

theorem Inventory.members_filter (inventory : Inventory) (only : List Category) :
    inventory.members (Category.all.filter fun category => category ∈ only) =
      (inventory.members Category.all).filter fun member => member.1 ∈ only.map Category.name := by
  unfold members
  rw [List.filter_map]
  refine congrArg (List.map _) (List.filter_congr fun category _ => ?_)
  rw [Function.comp_apply, Bool.eq_iff_iff, decide_eq_true_iff, decide_eq_true_iff,
    List.mem_map_of_injective Category.name_injective]

theorem Presentation.read?_render_json (only : List Category) (colored : Bool) (selector : String)
    (inventory : Inventory) :
    Json.read? (({ format := .json, only, colored } : Presentation).render selector inventory) =
      some (.object (inventory.members
        ({ format := .json, only, colored } : Presentation).categories)) :=
  Json.read?_write .indented _

/-! ### Lines of a listing -/

namespace Listing

/-- The line of a selector. Colours make it bold. -/
def headline (colored : Bool) (selector : String) : String :=
  if colored then "\x1b[1m" ++ selector ++ "\x1b[0m" else selector

/-- The line of a category. Colours make its name cyan. -/
def headingLine (colored : Bool) (category : Category) : String :=
  if colored then "  \x1b[36m" ++ category.name ++ "\x1b[39m" else "  " ++ category.name

/-- The line of a lexeme. Equal sides of a pair are written once. -/
def lexemeLine : Lexeme → String
  | .text name => "    " ++ name
  | .attribute pair =>
    if pair.key = pair.value then "    " ++ pair.key
    else "    " ++ pair.key ++ " = " ++ pair.value

theorem paint_bold (colored : Bool) (selector : String) :
    paint colored .bold selector = headline colored selector := by
  cases colored with
  | false => rfl
  | true =>
    have codes : Text.controlSequence "1" = "\x1b[1m" ∧ Text.controlSequence "0" = "\x1b[0m" := by
      decide
    show Text.controlSequence "1" ++ selector ++ Text.controlSequence "0" = _
    rw [codes.1, codes.2]
    rfl

theorem append_paint_cyan (colored : Bool) (category : Category) :
    "  " ++ paint colored .cyan category.name = headingLine colored category := by
  cases colored with
  | false => rfl
  | true => cases category <;> decide

theorem append_listing (lexeme : Lexeme) : "    " ++ lexeme.listing = lexemeLine lexeme := by
  rcases lexeme with name | pair
  · rfl
  · by_cases same : pair.key = pair.value
    · simp only [Lexeme.listing, Attribute.sidesAgree, lexemeLine, same, beq_self_eq_true,
        if_true]
    · simp only [Lexeme.listing, Attribute.sidesAgree, lexemeLine, same, beq_iff_eq, if_false,
        String.append_assoc]

/-! ### Blocks of a listing -/

/-- A headline with blocks of lines below it, or with a remark where there are none. -/
def page (headline : String) (blocks : List (List String)) : String :=
  String.join
    ((headline :: if blocks = [] then ["  (no lexemes)"] else blocks.flatten).map (· ++ "\n"))

theorem render_eq_page (colored : Bool) (categories : List Category) (selector : String)
    (inventory : Inventory) :
    render colored categories selector inventory ++ "\n" =
      page (paint colored .bold selector) (blocks colored categories inventory) := by
  rw [render, listingLines, intercalate_append, page]
  cases blocks colored categories inventory with
  | nil => rfl
  | cons first rest => rfl

theorem render_of_no_blocks {colored : Bool} {categories : List Category} {inventory : Inventory}
    (nothing : blocks colored categories inventory = []) (selector : String) :
    render colored categories selector inventory =
      headline colored selector ++ "\n  (no lexemes)" := by
  rw [render, listingLines, nothing, String.intercalate_cons_cons, String.intercalate_singleton,
    String.append_assoc, paint_bold]
  rfl

/-- The blocks of the categories that have lexemes, each with its category: a heading, and a line
for each lexeme. -/
def categoryBlocks (colored : Bool) (inventory : Inventory) : List (Category × List String) :=
  (Category.all.filter fun category => inventory.lexemes category ≠ []).map fun category =>
    (category, headingLine colored category :: (inventory.lexemes category).map lexemeLine)

theorem block_eq (colored : Bool) (category : Category) (lexemes : List Lexeme) :
    block colored category lexemes =
      headingLine colored category :: lexemes.map lexemeLine := by
  rw [block, append_paint_cyan]
  exact congrArg _ (List.map_congr_left fun lexeme _ => append_listing lexeme)

theorem blocks_filter (colored : Bool) (inventory : Inventory) (shown : Category → Bool) :
    blocks colored (Category.all.filter shown) inventory =
      ((categoryBlocks colored inventory).filter fun block => shown block.1).map Prod.snd := by
  simp only [blocks, block_eq]
  rw [categoryBlocks, List.filter_filter, List.filter_map, List.map_map, List.filter_filter]
  refine congrArg (List.map _) (List.filter_congr fun category _ => ?_)
  rw [Function.comp_apply, Bool.and_comm]
  refine congrArg (shown category && ·) ?_
  rw [Bool.eq_iff_iff, Bool.not_eq_true', List.isEmpty_eq_false_iff, decide_eq_true_iff]

theorem blocks_all (colored : Bool) (inventory : Inventory) :
    blocks colored Category.all inventory = (categoryBlocks colored inventory).map Prod.snd := by
  have filtered := blocks_filter colored inventory fun _ => true
  rwa [List.filter_true, List.filter_true] at filtered

theorem filter_categoryBlocks_eq_nil {only : List Category} {inventory : Inventory}
    (bare : ∀ category ∈ only, inventory.lexemes category = []) (colored : Bool) :
    ((categoryBlocks colored inventory).filter fun block => block.1 ∈ only) = [] := by
  refine List.filter_eq_nil_iff.mpr fun block member => ?_
  obtain ⟨category, kept, rfl⟩ := List.mem_map.mp member
  have lexemes := of_decide_eq_true (List.mem_filter.mp kept).2
  exact fun shown => lexemes (bare category (of_decide_eq_true shown))

end Listing

/-- The categories that a rendering is restricted to are a set, and all of them are as good as
none. A restricted JSON document has those members of the full one whose categories are asked for.
A restricted listing has those blocks of the full one, or a remark when there are none of them. -/
theorem Presentation.render_restricted (selector : String) (inventory : Inventory)
    (colored : Bool) :
    (∀ (format : Format) (first second : List Category),
      (∀ category, category ∈ first ↔ category ∈ second) →
      ({ format, only := first, colored } : Presentation).render selector inventory =
        ({ format, only := second, colored } : Presentation).render selector inventory) ∧
    (∀ (format : Format) (only : List Category), (∀ category, category ∈ only) →
      ({ format, only, colored } : Presentation).render selector inventory =
        ({ format, only := [], colored } : Presentation).render selector inventory) ∧
    (∃ members : List (String × Json),
      Json.read? (({ format := .json, only := [], colored } : Presentation).render selector
        inventory) = some (.object members) ∧
      members.map Prod.fst = Category.all.map Category.name ∧
      (∀ category : Category, members[category.index]? = some (category.name,
        .array ((inventory.lexemes category).map fun lexeme =>
          match lexeme with
          | .text name => .string name
          | .attribute pair =>
            .object [("key", .string pair.key), ("value", .string pair.value)]))) ∧
      ∀ only : List Category, only ≠ [] →
        Json.read? (({ format := .json, only, colored } : Presentation).render selector
          inventory) = some (.object (members.filter fun member =>
            member.1 ∈ only.map Category.name))) ∧
    ({ format := .text, only := [], colored } : Presentation).render selector inventory ++ "\n" =
      Listing.page (Listing.headline colored selector)
        ((Listing.categoryBlocks colored inventory).map Prod.snd) ∧
    ∀ only : List Category, only ≠ [] →
      ({ format := .text, only, colored } : Presentation).render selector inventory ++ "\n" =
        Listing.page (Listing.headline colored selector)
          (((Listing.categoryBlocks colored inventory).filter fun block =>
            block.1 ∈ only).map Prod.snd) ∧
      ((∀ category ∈ only, inventory.lexemes category = []) →
        ({ format := .text, only, colored } : Presentation).render selector inventory =
          Listing.headline colored selector ++ "\n  (no lexemes)") := by
  refine ⟨fun format first second same => ?_, fun format only all => ?_, ?_, ?_, ?_⟩
  · refine render_congr (fun category => ?_) format colored selector inventory
    rw [List.eq_nil_iff_forall_not_mem, List.eq_nil_iff_forall_not_mem]
    simp only [same]
  · refine render_congr (fun category => ?_) format colored selector inventory
    exact iff_of_true (Or.inr (all category)) (Or.inl rfl)
  · refine ⟨inventory.members Category.all, read?_render_json [] colored selector inventory, rfl,
      fun category => ?_, fun only restricted => ?_⟩
    · rw [Inventory.members, List.getElem?_map, Category.all_getElem?_index]
      rfl
    · rw [read?_render_json, categories_of_ne_nil restricted, inventory.members_filter]
  · rw [← Listing.blocks_all, ← Listing.paint_bold]
    exact Listing.render_eq_page colored _ selector inventory
  · intro only restricted
    have shown : Listing.blocks colored
        ({ format := .text, only, colored } : Presentation).categories inventory =
          ((Listing.categoryBlocks colored inventory).filter fun block => block.1 ∈ only).map
            Prod.snd := by
      rw [categories_of_ne_nil restricted, Listing.blocks_filter]
    refine ⟨?_, fun bare => Listing.render_of_no_blocks ?_ selector⟩
    · rw [← shown, ← Listing.paint_bold]
      exact Listing.render_eq_page colored _ selector inventory
    · rw [shown, Listing.filter_categoryBlocks_eq_nil bare, List.map_nil]

/-- An element, a pair and a key without a value of its own. -/
def Inventory.elementWithAttributes : Inventory where
  elements := #[.text "a"]
  attributes := #[.attribute ⟨"x", "y"⟩, .attribute ⟨"k", "k"⟩]

/-- Categories that are asked for twice are shown once. One that has no lexemes leaves a remark,
although the inventory is not empty. -/
theorem Presentation.render_restricted_twice :
    (∀ category, category ∈ [Category.ids, .ids] ↔ category ∈ [Category.ids]) ∧
      (∀ category, category ∈ Category.all) ∧ [Category.ids, .ids] ≠ [] ∧
      [Category.attributes, .attributes] ≠ [] ∧
      (∀ category ∈ [Category.ids, .ids],
        Inventory.elementWithAttributes.lexemes category = []) ∧
      ({ format := .text, only := [.attributes, .attributes] } : Presentation).render
          "a[x=y][k]" .elementWithAttributes ++ "\n" =
        "a[x=y][k]\n  attributes\n    x = y\n    k\n" ∧
      ({ format := .text, only := [.attributes, .attributes], colored := true } :
          Presentation).render "a[x=y][k]" .elementWithAttributes ++ "\n" =
        "\x1b[1ma[x=y][k]\x1b[0m\n  \x1b[36mattributes\x1b[39m\n    x = y\n    k\n" ∧
      ({ format := .text, only := [.ids, .ids] } : Presentation).render "a[x=y][k]"
          .elementWithAttributes =
        "a[x=y][k]\n  (no lexemes)" ∧
      ({ format := .text, only := [.ids, .ids] } : Presentation).render "a[x=y][k]"
          .elementWithAttributes =
        ({ format := .text, only := [.ids] } : Presentation).render "a[x=y][k]"
          .elementWithAttributes ∧
      ({ only := Category.all } : Presentation).render "a[x=y][k]" .elementWithAttributes =
        ({} : Presentation).render "a[x=y][k]" .elementWithAttributes := by
  have same : ∀ category, category ∈ [Category.ids, .ids] ↔ category ∈ [Category.ids] := by
    simp
  have ids : [Category.ids, .ids] ≠ [] := List.cons_ne_nil _ _
  have attributes : [Category.attributes, .attributes] ≠ [] := List.cons_ne_nil _ _
  have bare : ∀ category ∈ [Category.ids, .ids],
      Inventory.elementWithAttributes.lexemes category = [] := by
    simp only [List.forall_mem_cons]
    exact ⟨rfl, rfl, List.forall_mem_nil _⟩
  obtain ⟨sets, whole, _, _, listed⟩ :=
    render_restricted "a[x=y][k]" .elementWithAttributes false
  obtain ⟨_, _, _, _, painted⟩ :=
    render_restricted "a[x=y][k]" .elementWithAttributes true
  exact ⟨same, Category.mem_all, ids, attributes, bare,
    (listed _ attributes).1.trans (by decide), (painted _ attributes).1.trans (by decide),
    (listed _ ids).2 bare, sets .text _ _ same, whole .json _ Category.mem_all⟩

end SelectorLexemes
