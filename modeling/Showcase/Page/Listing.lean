import Showcase.Text.Basic

/-!
# Listings

A page is compiled as a template, where double braces are expressions. So each listing is marked
raw, on `pre` and on `code`. The mark on `code` would also keep the highlighter away, so in a second
step it makes room for the highlighter's class.

Both steps edit the first such element of the listing's HTML and leave all else alone.
-/

namespace Showcase.Listing

/-- The ways to change a listing. -/
inductive Wrapper
  | markRaw
  | highlight

/-- A listing that the template compiler leaves alone. -/
def markRaw (html : Text) : Text :=
  Text.replaceFirst "<code".toList "<code v-pre".toList
    (Text.replaceFirst "<pre>".toList "<pre v-pre>".toList html)

/-- A listing that the highlighter takes up: the first form that occurs is rewritten. -/
def highlight (html : Text) : Text :=
  if Text.has html "<code v-pre class=\"".toList then
    Text.replaceFirst "<code v-pre class=\"".toList "<code class=\"hljs ".toList html
  else if Text.has html "<code v-pre>".toList then
    Text.replaceFirst "<code v-pre>".toList "<code class=\"hljs\">".toList html
  else Text.replaceFirst "<code>".toList "<code class=\"hljs\">".toList html

/-- Applies a wrapper. -/
def Wrapper.apply : Wrapper → Text → Text
  | .markRaw => Listing.markRaw
  | .highlight => Listing.highlight

/-- Applies wrappers from the innermost to the outermost. -/
def wrap (wrappers : List Wrapper) (html : Text) : Text :=
  wrappers.foldl (fun html w => w.apply html) html

end Showcase.Listing
