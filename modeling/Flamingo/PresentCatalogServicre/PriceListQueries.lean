import Flamingo.Lib.QuotedLiteral
import Flamingo.PresentCatalogServicre.SamplePriceListVC

set_option autoImplicit false

/-! # The query for a category

`CategoryListServiceVC` hands the text of a category to the price list, the empty text for the
category of all services, and the price list puts it between two quotation marks of a predicate
format. So the text is read as a literal, and with an apostrophe or a backslash in it the format says
something else or cannot be read. The text that is searched for is an argument of its format and is
never read; the operator of the search ignores the case of the letters `A` to `Z`, and of no others.
-/

namespace Flamingo

structure ModelSamplePriceListVC where
  category : String := ""
  titleController : String := ""
  presentFavorites : Bool := false
  deriving DecidableEq, Repr

/-- `tableView(didSelectRowAt:)` of the categories: the model that the price list gets. -/
def CategoryListServiceVC.didSelectRowAt (modelSamplePriceListVC : ModelSamplePriceListVC)
    (categoryService : Results CategoryService) (row : Nat) : Option ModelSamplePriceListVC := do
  let category ← categoryService[row]?
  let model :=
    if category.2.category = "Все услуги" then { modelSamplePriceListVC with category := "" }
    else { modelSamplePriceListVC with category := category.2.category }
  some { model with titleController := category.2.category }

/-! ## The format of a predicate -/

/-- The literals of a predicate format: an apostrophe ends one, and a backslash escapes. Whether a
percent sign introduces a placeholder in a literal too is left open; there is no argument for it. -/
def predicateSyntax (escape : Char → Char) (placeholders : Bool) : LiteralSyntax Char where
  quote := '\''
  escapeMark := '\\'
  escape := escape
  forbidden c := placeholders && c == '%'

/-- A comparison of the category with a literal: a literal that does not end raises an exception, and
one that ends the format is compared with. What follows a literal that ends earlier is not looked
into. -/
structure ReadsLiterals (g : LiteralSyntax Char) (realm : Realm) : Prop where
  unread : ∀ text : String, g.read text.toList = none →
    realm.servicePredicate ("nameCategoryService = '" ++ text) = none
  equals : ∀ (text : String) (value : List Char), g.read text.toList = some (value, []) →
    realm.servicePredicate ("nameCategoryService = '" ++ text)
      = some (fun service => service.nameCategoryService == String.ofList value)

/-! ## The property and its condition -/

/-- The services that the row of a category is for. -/
def ofCategory (category : String) (service : Service) : Bool :=
  category == "Все услуги" || service.nameCategoryService == category

/-- The list has the services of the category, the favourites among them if the flag is set, each
once and in the order of the names, and the search those of them whose name contains the text, where
`fold` is the case folding of a character. -/
def SamplePriceListVC.ShowsCategory (realm : Realm) (fold : Char → Char) (vc : SamplePriceListVC)
    (category : String) : Prop :=
  ∃ services, vc.services realm = some services ∧
    services.Perm (vc.objects.objects.filter (fun o =>
      ofCategory category o.2 && (!vc.presentFavorites || o.2.favorites))) ∧
    services.Pairwise (fun a b => realm.le a.2.nameService b.2.nameService = true) ∧
    ∀ searchText ∈ vc.text, vc.filteredService realm = some (services.filter
      (fun service => Text.containsFolded fold service.nameService searchText))

/-- The price lists that are opened from a row with the category and searched for the text, for any
services and flag. -/
def QueriedExactly (realm : Realm) (fold : Char → Char) (category searchText : String) : Prop :=
  ∀ (categoryService : Results CategoryService) (row : Nat)
    (model model' : ModelSamplePriceListVC) (vc : SamplePriceListVC),
    categoryService[row]?.map (·.2.category) = some category →
    CategoryListServiceVC.didSelectRowAt model categoryService row = some model' →
    vc.category = model'.category → vc.text = some searchText → vc.ShowsCategory realm fold category

/-- An apostrophe of the category ends the literal, and more of the format follows. -/
def ClosesEarly (g : LiteralSyntax Char) (category : String) : Prop :=
  ∃ value rest, g.read (category.toList ++ ['\'']) = some (value, rest) ∧ rest ≠ []

/-- The category of all services, or a text that stands for itself between quotation marks. -/
def ReadAsItself (g : LiteralSyntax Char) (category : String) : Prop :=
  category = "Все услуги" ∨ (category ≠ "" ∧ g.Plain category.toList)

/-! ## What is queried for -/

theorem category_didSelectRowAt {model model' : ModelSamplePriceListVC}
    {categoryService : Results CategoryService} {row : Nat} {category : String}
    (hrow : categoryService[row]?.map (·.2.category) = some category)
    (h : CategoryListServiceVC.didSelectRowAt model categoryService row = some model') :
    model'.category = if category = "Все услуги" then "" else category := by
  obtain ⟨o, ho, rfl⟩ := Option.map_eq_some_iff.mp hrow
  rw [CategoryListServiceVC.didSelectRowAt, ho] at h
  obtain rfl := Option.some.inj h
  dsimp only
  split_ifs <;> rfl

/-- **The list of a filter** has what passes it, in order. -/
theorem services_of_filter {realm : Realm} {vc : SamplePriceListVC} {p : Service → Bool}
    (h : categoryFilter realm vc.category = some p) :
    ∃ services, vc.services realm = some services ∧
      services.Perm (vc.objects.objects.filter (fun o =>
        p o.2 && (!vc.presentFavorites || o.2.favorites))) ∧
      services.Pairwise (fun a b => realm.le a.2.nameService b.2.nameService = true) := by
  rw [SamplePriceListVC.services, getDataFromTheDataBase, servicesOfCategory_eq, h, Option.map_some,
    Option.map_some]
  cases vc.presentFavorites with
  | false =>
      refine ⟨_, rfl, ?_, Results.sorted_pairwise realm Service.nameService _⟩
      simp only [Bool.not_false, Bool.true_or, Bool.and_true]
      exact Results.sorted_perm realm _ _
  | true =>
      refine ⟨_, rfl, ?_, Results.sorted_pairwise realm Service.nameService _⟩
      simp only [Bool.not_true, Bool.false_or]
      refine (Results.sorted_perm realm _ _).trans ?_
      refine ((Results.sorted_perm realm _ _).filter _).trans ?_
      rw [Results.filter, List.filter_filter]
      exact List.Perm.of_eq (List.filter_congr (fun o _ => Bool.and_comm _ _))

/-- A store with one service. -/
def storeOf (service : Service) : Table Service := Table.empty.saveObjectRealm service

/-- The price list of a category in a store with one service, and a searched text. -/
def priceListOf (service : Service) (category searchText : String) : SamplePriceListVC where
  objects := storeOf service
  category := if category = "Все услуги" then "" else category
  presentFavorites := false
  text := some searchText
  isActive := false

section Queried

variable {realm : Realm} {fold : Char → Char} {category searchText : String}

theorem QueriedExactly.shows (h : QueriedExactly realm fold category searchText)
    (service : Service) :
    (priceListOf service category searchText).ShowsCategory realm fold category := by
  have hrow : ([(0, { category := category })] : Results CategoryService)[0]?.map
      (·.2.category) = some category := rfl
  obtain ⟨model', hmodel⟩ : ∃ model', CategoryListServiceVC.didSelectRowAt {}
      [(0, { category := category })] 0 = some model' := ⟨_, rfl⟩
  exact h _ 0 {} model' _ hrow hmodel (category_didSelectRowAt hrow hmodel).symm rfl

/-- A store with one service shows what the filter says of it. -/
theorem QueriedExactly.filter_service (h : QueriedExactly realm fold category searchText)
    (service : Service) :
    ∃ p, categoryFilter realm (if category = "Все услуги" then "" else category) = some p ∧
      (p service = true ↔ ofCategory category service = true) := by
  obtain ⟨services, hservices, hperm, -, -⟩ := h.shows service
  cases hfilter : categoryFilter realm (if category = "Все услуги" then "" else category) with
  | none =>
      rw [SamplePriceListVC.services, getDataFromTheDataBase, servicesOfCategory_eq] at hservices
      change ((categoryFilter realm (if category = "Все услуги" then "" else category)).map _).map _
        = some services at hservices
      rw [hfilter] at hservices
      cases hservices
  | some p =>
      have hfilter' : categoryFilter realm (priceListOf service category searchText).category
        = some p := hfilter
      obtain ⟨services', hservices', hperm', -⟩ := services_of_filter hfilter'
      obtain rfl := Option.some.inj (hservices.symm.trans hservices')
      have hmem := (hperm'.symm.trans hperm).mem_iff (a := (0, service))
      refine ⟨p, rfl, ?_⟩
      simpa [priceListOf, storeOf, Table.saveObjectRealm, Table.empty] using hmem

/-- A store with one service of the category shows what the search says of its name. -/
theorem QueriedExactly.sameCases (h : QueriedExactly realm fold category searchText) :
    Text.SameCases fold searchText := by
  rw [← Text.containsC_eq_iff]
  intro name
  let service : Service := { nameService := name, nameCategoryService := category }
  obtain ⟨services, hservices, hperm, -, hsearch⟩ := h.shows service
  have hof : ofCategory category service = true := by
    rw [ofCategory, beq_self_eq_true, Bool.or_true]
  have hlisted : services.Perm [(0, service)] := by
    simpa [priceListOf, storeOf, Table.saveObjectRealm, Table.empty, hof] using hperm
  rw [List.perm_singleton] at hlisted
  have hfound := hsearch searchText rfl
  rw [SamplePriceListVC.filteredService_eq rfl hservices, hlisted, Option.some.injEq] at hfound
  have hmem := Iff.of_eq (congrArg ((0, service) ∈ ·) hfound)
  simp only [Results.filter, List.mem_filter, List.mem_singleton, true_and] at hmem
  exact Bool.eq_iff_iff.mpr hmem

end Queried

/-- **Exactly the services of the category** are found if the filter is the comparison with it, and
exactly those with the text in their names if the text has no other case than the search ignores, and
only then. -/
theorem queriedExactly_iff_filter (realm : Realm) (fold : Char → Char)
    (category searchText : String) :
    QueriedExactly realm fold category searchText ↔
      categoryFilter realm (if category = "Все услуги" then "" else category)
          = some (ofCategory category) ∧
        Text.SameCases fold searchText := by
  constructor
  · intro h
    refine ⟨?_, h.sameCases⟩
    obtain ⟨p, hp, -⟩ := h.filter_service {}
    rw [hp, Option.some.injEq]
    funext service
    obtain ⟨p', hp', hiff⟩ := h.filter_service service
    obtain rfl := Option.some.inj (hp.symm.trans hp')
    exact Bool.eq_iff_iff.mpr hiff
  · rintro ⟨h, hcases⟩ categoryService row model model' vc hrow hmodel hcategory htext
    rw [← category_didSelectRowAt hrow hmodel, ← hcategory] at h
    obtain ⟨services, hservices, hperm, hsorted⟩ := services_of_filter h
    refine ⟨services, hservices, hperm, hsorted, ?_⟩
    intro text hmem
    obtain rfl := Option.some.inj (htext.symm.trans hmem)
    rw [SamplePriceListVC.filteredService_eq htext hservices]
    simp only [(Text.containsC_eq_iff fold searchText).mpr hcases]

/-! ## What is read -/

section Literals

variable {escape : Char → Char} {placeholders : Bool} {realm : Realm} {category : String}

theorem toList_quoted (category : String) : (category ++ "'").toList = category.toList ++ ['\''] :=
  String.toList_append

/-- Comparisons with two texts are the same only if the texts are. -/
theorem comparison_inj {value category : String}
    (h : (fun service : Service => service.nameCategoryService == value)
      = fun service => service.nameCategoryService == category) : value = category := by
  have hvalue := congrFun h { nameCategoryService := value }
  simp only [beq_self_eq_true] at hvalue
  exact beq_iff_eq.mp hvalue.symm

/-- **A plain category** is compared with. -/
theorem servicePredicate_of_plain (h : ReadsLiterals (predicateSyntax escape placeholders) realm)
    (hplain : (predicateSyntax escape placeholders).Plain category.toList) :
    realm.servicePredicate ("nameCategoryService = '" ++ category ++ "'")
      = some (fun service => service.nameCategoryService == category) := by
  have hequals := h.equals (category ++ "'") category.toList (by
    rw [toList_quoted]
    exact ((predicateSyntax escape placeholders).read_quoted_iff category.toList).mpr hplain)
  rw [String.ofList_toList, ← String.append_assoc] at hequals
  exact hequals

/-- **A category that is not plain** is not compared with, unless its literal ends early and what
follows can be read. -/
theorem servicePredicate_eq_iff (h : ReadsLiterals (predicateSyntax escape placeholders) realm)
    (hearly : ClosesEarly (predicateSyntax escape placeholders) category →
      realm.servicePredicate ("nameCategoryService = '" ++ category ++ "'") = none) :
    realm.servicePredicate ("nameCategoryService = '" ++ category ++ "'")
        = some (fun service => service.nameCategoryService == category) ↔
      (predicateSyntax escape placeholders).Plain category.toList := by
  refine ⟨fun heq => ?_, servicePredicate_of_plain h⟩
  cases hread : (predicateSyntax escape placeholders).read (category.toList ++ ['\'']) with
  | none =>
      have hunread := h.unread (category ++ "'") (by rw [toList_quoted, hread])
      rw [← String.append_assoc, heq] at hunread
      cases hunread
  | some r =>
      obtain ⟨value, rest⟩ := r
      cases rest with
      | nil =>
          -- the literal ends the format, and its value is compared with
          have hequals := h.equals (category ++ "'") value (by rw [toList_quoted, hread])
          rw [← String.append_assoc, heq] at hequals
          have hvalue := comparison_inj (Option.some.inj hequals)
          refine ((predicateSyntax escape placeholders).read_quoted_iff category.toList).mp
            (hread.trans ?_)
          rw [hvalue, String.toList_ofList]
      | cons next rest =>
          rw [hearly ⟨value, _, hread, List.cons_ne_nil _ _⟩] at heq
          cases heq

/-- The filter is the one of the category if it is the category of all services, or the format
compares with it. -/
theorem categoryFilter_eq_iff :
    categoryFilter realm (if category = "Все услуги" then "" else category)
        = some (ofCategory category) ↔
      category = "Все услуги" ∨ (category ≠ "" ∧
        realm.servicePredicate ("nameCategoryService = '" ++ category ++ "'")
          = some (fun service => service.nameCategoryService == category)) := by
  by_cases hall : category = "Все услуги"
  · subst hall
    refine iff_of_true ?_ (Or.inl rfl)
    rfl
  · rw [if_neg hall, or_iff_right hall]
    have hof : ofCategory category = fun service => service.nameCategoryService == category := by
      funext service
      rw [ofCategory, beq_eq_false_iff_ne.mpr hall, Bool.false_or]
    by_cases hempty : category = ""
    · -- the empty text is the mark for all services
      refine iff_of_false ?_ (fun hne => hne.1 hempty)
      subst hempty
      rw [hof]
      intro heq
      have hother := congrFun (Option.some.inj heq) { nameCategoryService := "Маникюр" }
      exact absurd hother (by decide)
    · have hne : ¬ category.isEmpty = true := by
        rw [String.isEmpty_iff]
        exact hempty
      rw [categoryFilter, if_neg hne, hof, and_iff_right hempty]

end Literals

/-! ## A realm that reads literals -/

/-- Reads a comparison of the category with a literal, and nothing after it. -/
def literalRealm (g : LiteralSyntax Char) : Realm :=
  { plainRealm with
    servicePredicate := fun format =>
      let head := "nameCategoryService = '".toList
      if format.toList.take head.length = head then
        match g.read (format.toList.drop head.length) with
        | some (value, []) => some (fun service => service.nameCategoryService == String.ofList value)
        | _ => none
      else none }

theorem servicePredicate_literalRealm (g : LiteralSyntax Char) (text : String) :
    (literalRealm g).servicePredicate ("nameCategoryService = '" ++ text)
      = match g.read text.toList with
        | some (value, []) => some (fun service => service.nameCategoryService == String.ofList value)
        | _ => none := by
  unfold literalRealm
  dsimp only
  rw [String.toList_append, List.take_left, if_pos rfl, List.drop_left]

theorem readsLiterals_literalRealm (g : LiteralSyntax Char) : ReadsLiterals g (literalRealm g) where
  unread text h := by rw [servicePredicate_literalRealm, h]
  equals text value h := by rw [servicePredicate_literalRealm, h]

/-- A format that goes on after the literal is not read. -/
theorem servicePredicate_of_closesEarly {g : LiteralSyntax Char} {category : String}
    (h : ClosesEarly g category) :
    (literalRealm g).servicePredicate ("nameCategoryService = '" ++ category ++ "'") = none := by
  obtain ⟨value, rest, hread, hrest⟩ := h
  rw [String.append_assoc, servicePredicate_literalRealm, toList_quoted, hread]
  cases rest with
  | nil => exact absurd rfl hrest
  | cons next rest => rfl

/-! ## Every text -/

/-- **Price list queries are exact**, whatever formats say in which something follows the literal,
exactly for the category of all services and the texts that stand for themselves, and for searched
texts without letters that have a case beyond `A` to `Z`. Of a category whose literal does not end
early the same holds for any way of reading formats. -/
theorem queriedExactly_iff (escape : Char → Char) (placeholders : Bool) (fold : Char → Char)
    (category searchText : String) :
    ((∀ realm, ReadsLiterals (predicateSyntax escape placeholders) realm →
        QueriedExactly realm fold category searchText) ↔
      ReadAsItself (predicateSyntax escape placeholders) category ∧
        Text.SameCases fold searchText) ∧
    ∀ realm, ReadsLiterals (predicateSyntax escape placeholders) realm →
      ¬ ClosesEarly (predicateSyntax escape placeholders) category →
        (QueriedExactly realm fold category searchText ↔
          ReadAsItself (predicateSyntax escape placeholders) category ∧
            Text.SameCases fold searchText) := by
  have hone : ∀ realm, ReadsLiterals (predicateSyntax escape placeholders) realm →
      (ClosesEarly (predicateSyntax escape placeholders) category →
        realm.servicePredicate ("nameCategoryService = '" ++ category ++ "'") = none) →
      (QueriedExactly realm fold category searchText ↔
        ReadAsItself (predicateSyntax escape placeholders) category ∧
          Text.SameCases fold searchText) := by
    intro realm h hearly
    rw [queriedExactly_iff_filter, categoryFilter_eq_iff, servicePredicate_eq_iff h hearly,
      ReadAsItself]
  refine ⟨⟨fun hall => ?_, fun ⟨hcategory, hcases⟩ realm h => ?_⟩, fun realm h hends => ?_⟩
  · have hliteral := readsLiterals_literalRealm (predicateSyntax escape placeholders)
    exact (hone _ hliteral (servicePredicate_of_closesEarly)).mp (hall _ hliteral)
  · refine (queriedExactly_iff_filter realm fold category searchText).mpr ⟨?_, hcases⟩
    refine categoryFilter_eq_iff.mpr (hcategory.imp_right fun ⟨hne, hplain⟩ => ?_)
    exact ⟨hne, servicePredicate_of_plain h hplain⟩
  · exact hone realm h (fun hearly => absurd hearly hends)

/-- The case folding of Latin and Russian letters. -/
def foldRussian (c : Char) : Char :=
  if 'А'.toNat ≤ c.toNat ∧ c.toNat ≤ 'Я'.toNat then Char.ofNat (c.toNat + 32) else c.toLower

theorem foldRussian_eq_iff {c : Char} (hc : foldRussian c = c) (hlower : c.toLower = c)
    (hlatin : c.toNat < 128) (d : Char) : foldRussian d = foldRussian c ↔ d.toLower = c.toLower := by
  rw [hc, hlower, foldRussian]
  split_ifs with hd
  · obtain ⟨hlow, hhigh⟩ := hd
    have hlow : 1040 ≤ d.toNat := hlow
    have hhigh : d.toNat ≤ 1071 := hhigh
    refine iff_of_false ?_ ?_
    · intro heq
      have hvalid : (d.toNat + 32).isValidChar := Or.inl (by omega)
      rw [Char.ofNat, dif_pos hvalid] at heq
      have htoNat : d.toNat + 32 = c.toNat := congrArg Char.toNat heq
      omega
    · intro heq
      have hd : d.toLower = d := by
        refine dif_neg ?_
        rintro ⟨-, hZ⟩
        have hZ : d.toNat ≤ 90 := hZ
        omega
      rw [hd] at heq
      rw [heq] at hlow
      omega
  · rfl

/-- A category without an apostrophe, in which a Latin text is searched for. -/
theorem queriedExactly_manicure :
    QueriedExactly (literalRealm (predicateSyntax id true)) foldRussian "Маникюр" "gel" := by
  have hcases : Text.SameCases foldRussian "gel" := by
    intro c hc
    have hc : c = 'g' ∨ c = 'e' ∨ c = 'l' := by simpa using hc
    have hlatin : foldRussian c = c ∧ c.toLower = c ∧ c.toNat < 128 := by
      rcases hc with rfl | rfl | rfl <;> decide
    obtain ⟨hfold, hlower, hlt⟩ := hlatin
    exact foldRussian_eq_iff hfold hlower hlt
  exact (queriedExactly_iff id true foldRussian "Маникюр" "gel").1.mpr
    ⟨Or.inr ⟨by decide, by decide⟩, hcases⟩ _ (readsLiterals_literalRealm _)

/-- **An apostrophe in a category.** The format of `L'Oréal` cannot be read, and the price list
traps. -/
theorem not_queriedExactly : ¬ ∀ (realm : Realm) (fold : Char → Char) (category searchText : String),
    ReadsLiterals (predicateSyntax id false) realm →
      QueriedExactly realm fold category searchText := by
  intro hall
  obtain ⟨services, hservices, -⟩ := hall (literalRealm (predicateSyntax id false)) foldRussian
    "L'Oréal" "" (readsLiterals_literalRealm _) [(0, { category := "L'Oréal" })] 0 {}
    { category := "L'Oréal", titleController := "L'Oréal" }
    ⟨Table.empty, "L'Oréal", false, some "", false⟩ rfl (by decide) rfl rfl
  have hnone : ((SamplePriceListVC.mk Table.empty "L'Oréal" false (some "") false).services
      (literalRealm (predicateSyntax id false))).isNone = true := by decide
  rw [hservices] at hnone
  cases hnone

end Flamingo
