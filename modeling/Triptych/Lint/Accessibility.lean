import Triptych.Lint.Rule

/-!
# Accessibility

Images need a text that can be read aloud, buttons and links need a name, and a role must be one
that assistive software knows.
-/

namespace Triptych.Lint.Accessibility

open Markup

/-- The roles that assistive software knows. -/
def knownRoles : List String :=
  ["article", "cell", "columnheader", "complementary", "contentinfo", "definition", "directory",
    "document", "feed", "figure", "group", "heading", "img", "list", "listitem", "main", "math",
    "navigation", "none", "note", "presentation", "region", "row", "rowgroup", "rowheader",
    "separator", "table", "term", "toolbar", "alert", "alertdialog", "button", "checkbox", "dialog",
    "gridcell", "link", "log", "marquee", "menuitem", "menuitemcheckbox", "menuitemradio", "option",
    "progressbar", "radio", "scrollbar", "searchbox", "slider", "spinbutton", "status", "switch",
    "tab", "tabpanel", "textbox", "timer", "tooltip", "treeitem", "banner", "form", "search",
    "application", "combobox", "grid", "listbox", "menu", "menubar", "radiogroup", "tablist",
    "tree", "treegrid"]

mutual

/-- True of a node with visible text in it, at any depth. -/
def showsText : Node → Bool
  | .element _ children _ => anyShowsText children
  | .text value _ => !Text.isBlankText value.toList
  | .comment _ _ => false

/-- True when one of the nodes has visible text in it. -/
def anyShowsText : List Node → Bool
  | [] => false
  | node :: nodes => showsText node || anyShowsText nodes

end

/-- True when the tag has one of these attributes. -/
def hasAny (tag : Tag) (names : List String) : Bool :=
  names.any tag.hasAttribute

/-- True of an element with this name that neither shows text nor is labelled. -/
def lacksName (element : Element) (name : String) : Bool :=
  isNamedIn [name] element.tag.name && !anyShowsText element.children &&
    !hasAny element.tag ["aria-label", "aria-labelledby"]

/-- Finds images that have no text to read aloud. -/
def checkImage (element : Element) : List Diagnostic :=
  if isNamedIn ["img"] element.tag.name &&
      !hasAny element.tag ["alt", ":alt", "aria-label", "aria-labelledby", "role"] then
    [.warning "a11y-img-alt" "Images must have alternative text for screen readers"
      "Add an 'alt' attribute describing the image content, or use 'aria-label' if appropriate"
      element.span]
  else []

/-- Finds buttons without a name. -/
def checkButton (element : Element) : List Diagnostic :=
  if lacksName element "button" then
    [.warning "a11y-button-text" "Buttons must have accessible text content"
      "Add text content inside the button, or use 'aria-label' to provide a label" element.span]
  else []

/-- Finds links without a name. -/
def checkLink (element : Element) : List Diagnostic :=
  if lacksName element "a" then
    [.warning "a11y-link-text" "Links must have accessible text content"
      "Add text content inside the link, or use 'aria-label' to provide a label" element.span]
  else []

/-- Finds roles that are not known. The case of letters counts. -/
def checkRole (element : Element) : List Diagnostic :=
  match (element.tag.attribute? "role").bind (·.value) with
  | none => []
  | some role =>
    if knownRoles.contains role then []
    else
      [.warning "a11y-invalid-aria-role" s!"Invalid ARIA role: '{role}'"
        ("Use a valid ARIA role such as: button, link, navigation, main, complementary, banner, " ++
          "contentinfo, etc.")
        element.span]

/-- The rule. -/
def rule : Rule where
  name := "a11y"
  description :=
    "Images need alternative text, buttons and links need accessible names, roles must be valid"
  checkElement element :=
    checkImage element ++ checkButton element ++ checkLink element ++ checkRole element

end Triptych.Lint.Accessibility
