import Showcase.Demo.Event
import Showcase.Demo.EmptyAttribute
import Showcase.Text.HexReference
import Showcase.Demo.Marker
import Showcase.Demo.Payload
import Showcase.Demo.TagBlock
import Showcase.Document.Node
import Showcase.Document.Reference
import Showcase.Document.Tag
import Showcase.Document.Token
import Showcase.Document.Tree
import Showcase.Main
import Showcase.Markup.Content
import Showcase.Markup.Block.Reader
import Showcase.Markup.Block.Start
import Showcase.Markup.Block.Table
import Showcase.Markup.Dialect
import Showcase.Markup.Html
import Showcase.Markup.Inline.Atom
import Showcase.Markup.Inline.Emphasis
import Showcase.Markup.Inline.Reader
import Showcase.Markup.Line
import Showcase.Markup.Link
import Showcase.Markup.RawHtml
import Showcase.Markup.Unescape
import Showcase.Markup.Url
import Showcase.Markup.Url.Percent
import Showcase.Markup.Url.Punycode
import Showcase.Outline.Entry
import Showcase.Outline.Heading
import Showcase.Page.Session
import Showcase.Page.Config
import Showcase.Page.Engine
import Showcase.Page.Listing
import Showcase.Page.Spelling
import Showcase.Page.Source
import Showcase.Proofs.Demo.Marker
import Showcase.Proofs.EmptyAttribute.Drops
import Showcase.Proofs.HexReference.Border
import Showcase.Proofs.HexReference.Confluence
import Showcase.Proofs.Markup.Lines
import Showcase.Proofs.Markup.Reading
import Showcase.Proofs.Outline.Nesting
import Showcase.Proofs.Page.DemoPage
import Showcase.Proofs.Payload.Leftover
import Showcase.Proofs.Payload.Splitting
import Showcase.Proofs.TagBlock.Seam
import Showcase.Proofs.TagBlock.Shape
import Showcase.Proofs.TagBlock.Sharing
import Showcase.Proofs.TagBlock.Survival
import Showcase.Proofs.Text.Basic
import Showcase.Site.Arguments
import Showcase.Site.Build
import Showcase.Site.Command
import Showcase.Site.Console
import Showcase.Site.FileTree
import Showcase.Site.Path
import Showcase.Site.Run
import Showcase.Site.Task
import Showcase.Text.Basic
import Showcase.Text.Blank
import Showcase.Text.Case
import Showcase.Text.CaseTable
import Showcase.Text.Utf8
import Showcase.Text.Escape
import Showcase.Text.Json
import Showcase.Text.Punctuation
import Showcase.Text.Reference
import Showcase.Text.ReferenceTable
import Showcase.Proofs.Payload.Attribute
import Showcase.Proofs.Document.Draft
import Showcase.Proofs.Document.Orderly
import Showcase.Proofs.Document.Regular
import Showcase.Proofs.Document.Trimming
import Showcase.Proofs.Outline.TitleHtml
import Showcase.Proofs.Site.Ways
import Showcase.Proofs.Site.Building
import Showcase.Proofs.Site.Soundness
import Showcase.Proofs.Site.Pages
import Showcase.Proofs.Site.Independence
import Showcase.Proofs.Page.Slug
import Showcase.Proofs.Markup.HeadingLine
import Showcase.Proofs.Page.HeadingPage
import Showcase.Proofs.Document.Ordinary
import Showcase.Proofs.Outline.HeadingPage
import Showcase.Proofs.Document.Course
import Showcase.Proofs.Document.Piece
import Showcase.Proofs.Outline.Inside
import Showcase.Proofs.Page.Listing
import Showcase.Proofs.Page.Widget
import Showcase.Proofs.Outline.DemoElement
import Showcase.Proofs.Document.Tags
import Showcase.Proofs.Markup.RawFree
import Showcase.Proofs.Outline.HasHeadings
import Showcase.Proofs.Page.Anchors
import Showcase.Proofs.Page.Elements
import Showcase.Proofs.Outline.Ids
import Showcase.Proofs.Page.Complete
import Showcase.Proofs.Site.Names
import Showcase.Proofs.Site.Again
import Showcase.Proofs.Site.Queue
import Showcase.Proofs.Site.Failing
import Showcase.Proofs.Site.Targets
import Showcase.Proofs.Site.Errors
import Showcase.Proofs.Page.Session
import Showcase.Proofs.Site.Trial
import Showcase.Proofs.Markup.Tokens
import Showcase.Proofs.Page.DemoTokens
import Showcase.Proofs.Page.DemoDepth
import Showcase.Proofs.Page.Description
import Showcase.Proofs.Page.Failures
import Showcase.Proofs.Text.Search
import Showcase.Proofs.TagBlock.Search
import Showcase.Proofs.EmptyAttribute.Tag
import Showcase.Proofs.EmptyAttribute.Bare
import Showcase.Proofs.EmptyAttribute.Value
import Showcase.Proofs.HexReference.Replacement
import Showcase.Proofs.HexReference.AnyOrder
import Showcase.Proofs.Text.Utf8
import Showcase.Proofs.HexReference.Final
import Showcase.Proofs.Page.CodeElement
import Showcase.Proofs.TagBlock.SelfClosing
import Showcase.Proofs.TagBlock.Marked
import Showcase.Proofs.TagBlock.AnyOrder
import Showcase.Proofs.Page.ExternalLink
import Showcase.Proofs.Page.LineEnds
import Showcase.Proofs.Page.SlugForm
import Showcase.Proofs.Text.Words
import Showcase.Proofs.Outline.Title
import Showcase.Proofs.Demo.Event
